import Lakehouse.Orchestration.LakehouseBatch
import Lakehouse.Verify.HealthyRuns

/-!
# Runs of the DAG on a healthy lake

A run of the DAG writes the tables of `batch_bronze_silver` in the order of a round and stops at the
first write that fails, so it is a round of a healthy run, whole or broken off
(`batchScript_round`). From there every task succeeds or fails for a reason that lies outside the
tables, but for the gate, which also asks for an event in Bronze (`lakehouseBatch_outcome`). The two
tables of Gold are built one by one, and one of them may be new where the task has failed
(`ModelBuilt`). What a task leaves is said for each of them (`Left.dbt` and the others), and for the
run by the rule of a chain (`lakehouseBatch_left`).
-/

namespace Lakehouse.Verify

open Lib Source Batch Demo Orchestration

section Dag

variable {ε : Type} {jsonDumps : Ingestion.RateEvent ε → String} {bucketHash : String → Nat}

/-! ## Tables a round leaves alone -/

/-- A write takes nothing from Bronze. -/
theorem JobStep.bronze_le {s s' : Lake bucketHash} {j : Job} (h : JobStep j s s')
    (table : CdcTable) : s.bronze.cdc table ≤ s'.bronze.cdc table := by
  cases h with
  | @ingest _ lane _ topics _ env =>
    cases lane with
    | cdc topic table' =>
      rw [Lake.ingest, ingestLane_cdc]
      rcases eq_or_ne table table' with rfl | hne
      · rw [Function.update_self]
        exact Multiset.le_add_right _ _
      · rw [Function.update_of_ne hne]
    | events => exact le_rfl
  | silverOrders | silverCustomers | silverOrderItems | goldDailyRevenue
  | goldCustomerMetrics => exact le_rfl

/-- Nor do several. -/
theorem JobRun.bronze_le {s s' : Lake bucketHash} {jobs : List Job} (h : JobRun s jobs s')
    (table : CdcTable) : s.bronze.cdc table ≤ s'.bronze.cdc table := by
  induction h with
  | nil => exact le_rfl
  | snoc _ hstep ih => exact ih.trans (hstep.bronze_le table)

theorem Retains.mono {α ρ : Type} {T : Captured α ρ} {changes : List (ChangeEvent α)}
    {ingested ingested' : Multiset CdcRow} {records : List KafkaRecord}
    (h : Retains T changes ingested records) (hle : ingested ≤ ingested') :
    Retains T changes ingested' records := by
  obtain ⟨history, hcarries, hsub, hall⟩ := h
  refine ⟨history, hcarries, hsub, fun e he => (hall e he).imp_right ?_⟩
  rintro ⟨now, cdcId, hmem⟩
  exact ⟨now, cdcId, Multiset.mem_of_le hle hmem⟩

/-- What a topic may hold before a round it may hold in it. -/
theorem JobRun.holds {s s' : Lake bucketHash} {jobs : List Job} {topics : Topics}
    (h : JobRun s jobs s') (hholds : s.Holds topics) : s'.Holds topics := by
  constructor
  · rw [h.source_eq]
    exact hholds.orders.mono (h.bronze_le _)
  · rw [h.source_eq]
    exact hholds.customers.mono (h.bronze_le _)
  · rw [h.source_eq]
    exact hholds.items.mono (h.bronze_le _)

/-- The table of a lane that is not read stays. -/
theorem JobRun.laneIds_eq {s s' : Lake bucketHash} {jobs : List Job} (h : JobRun s jobs s')
    {lane : Lane} (hlane : lane ∈ lanes) (hnot : Job.ingest lane ∉ jobs) :
    laneIds s'.bronze lane = laneIds s.bronze lane := by
  induction h with
  | nil => rfl
  | snoc _ hstep ih =>
    rw [List.mem_append, not_or] at hnot
    rw [← ih hnot.1]
    cases hstep with
    | ingest hlane' =>
      refine laneIds_ingestLane_of_ne _ _ _ fun heq => hnot.2 ?_
      obtain rfl := lane_eq_of_table lane hlane _ hlane' heq
      exact .head _
    | silverOrders | silverCustomers | silverOrderItems | goldDailyRevenue
    | goldCustomerMetrics => rfl

/-! ## Writes of a run -/

/-- The Bronze and Silver tables are those of the lake. -/
structure Matches (s : Lake bucketHash) (t : Quality.Tables bucketHash) : Prop where
  bronze : t.bronze = s.bronze
  silver : t.silver = s.silver

/-- A run finds the topics as a healthy run does. -/
structure Finds (jsonDumps : Ingestion.RateEvent ε → String) (s : Lake bucketHash)
    (e : DagEnv bucketHash) : Prop where
  holds : ∀ lane ∈ lanes, s.Holds (e.topics lane)
  fresh : ∀ lane ∈ lanes, FreshUuids (laneIds s.bronze lane) (e.ingest lane.topic).uuid
    (e.topics lane lane.topic).length
  loaded : ∀ lane ∈ lanes, ∀ r ∈ e.topics lane rawEventsTopic, LoadedRecord jsonDumps r
  present : ∀ table rows, (e.present table rows : Multiset CdcRow) = rows

/-- The write of a job of the batch. -/
def jobWrite (e : DagEnv bucketHash) :
    Job → Quality.Tables bucketHash → Option (Quality.Tables bucketHash)
  | .ingest lane => e.ingestWrite lane
  | .silverOrders => e.ordersWrite
  | .silverCustomers => e.customersWrite
  | .silverOrderItems => e.orderItemsWrite
  | .goldDailyRevenue | .goldCustomerMetrics => fun _ => none

theorem batchWrites_eq (e : DagEnv bucketHash) : e.batchWrites = airflowJobs.map (jobWrite e) := rfl

theorem airflowJobs_nodup : airflowJobs.Nodup := by decide

theorem mem_airflowJobs {j : Job} (hj : j ∈ airflowJobs) :
    (∃ lane ∈ lanes, j = .ingest lane) ∨ j ∈ silverJobs := by
  rcases List.mem_append.1 hj with hj | hj
  · obtain ⟨lane, hlane, rfl⟩ := List.mem_map.1 hj
    exact .inl ⟨lane, hlane, rfl⟩
  · exact .inr hj

theorem kafkaEvents_ingest (e : DagEnv bucketHash) (lane : Lane) (b : Bronze) :
    (ingestLane e.ingest (e.topics lane) (b, 0) lane).1.kafkaEvents = 0 ↔
      b.kafkaEvents = 0 ∧ (lane = .events → e.topics .events rawEventsTopic = []) := by
  cases lane with
  | cdc topic table => exact ⟨fun h => ⟨h, by simp⟩, fun h => h.1⟩
  | events =>
    change (ingestRawEvents _ _ _).1 = 0 ↔ _
    rw [ingestRawEvents_fst, add_eq_zero, Multiset.coe_eq_zero, List.mapIdx_eq_nil_iff]
    simp

/-- What a round has done of the writes, and the tables it has left. -/
structure RoundOf (jsonDumps : Ingestion.RateEvent ε → String) (s : Lake bucketHash)
    (e : DagEnv bucketHash) (gold : Dbt.Gold) (done : List Job) (t : Quality.Tables bucketHash)
    (s' : Lake bucketHash) : Prop where
  run : FreshRun jsonDumps s done s'
  tables : Matches s' t
  gold : t.gold = gold
  events : t.bronze.kafkaEvents = 0 ↔ s.bronze.kafkaEvents = 0 ∧
    (Job.ingest .events ∈ done → e.topics .events rawEventsTopic = [])

/-- **A write is a step** of a healthy round, and none is rejected. -/
theorem exists_freshStep {e : DagEnv bucketHash} {s s₁ : Lake bucketHash} (hs : LakeSound s)
    (hfinds : Finds jsonDumps s e) {done : List Job} (hrun : FreshRun jsonDumps s done s₁) {j : Job}
    (hmem : j ∈ airflowJobs) (hnot : j ∉ done) (gold : Dbt.Gold) :
    ∃ s', FreshStep jsonDumps j s₁ s' ∧
      jobWrite e j ⟨s₁.bronze, s₁.silver, gold⟩ = some ⟨s'.bronze, s'.silver, gold⟩ ∧
      (s'.bronze.kafkaEvents = 0 ↔ s₁.bronze.kafkaEvents = 0 ∧
        (j = .ingest .events → e.topics .events rawEventsTopic = [])) := by
  have hs₁ := hrun.jobRun.sound hs
  rcases mem_airflowJobs hmem with ⟨lane, hlane, rfl⟩ | hsilver
  · have hfresh := hfinds.fresh lane hlane
    rw [← hrun.jobRun.laneIds_eq hlane hnot] at hfresh
    refine ⟨s₁.ingest e.ingest (e.topics lane) lane, .ingest hlane
      (hrun.jobRun.holds (hfinds.holds lane hlane)) hfresh (hfinds.loaded lane hlane), rfl, ?_⟩
    rw [Job.ingest.injEq]
    exact kafkaEvents_ingest e lane s₁.bronze
  · have hne : ∀ lane, j ≠ .ingest lane := by
      rintro lane rfl
      simp [silverJobs] at hsilver
    have hkeep : s₁.bronze.kafkaEvents = 0 ↔ s₁.bronze.kafkaEvents = 0 ∧
        (j = .ingest .events → e.topics .events rawEventsTopic = []) :=
      (and_iff_left fun h => absurd h (hne .events)).symm
    cases j with
    | ingest lane => exact absurd rfl (hne lane)
    | silverOrders =>
      obtain ⟨t', ht'⟩ := exists_silverOrders hs₁ (hfinds.present .cdcOrders _)
      exact ⟨_, .write hne (.silverOrders (hfinds.present .cdcOrders _) ht'),
        congrArg (Option.map _) ht', hkeep⟩
    | silverCustomers =>
      obtain ⟨t', ht'⟩ := exists_silverCustomers hs₁ (hfinds.present .cdcCustomers _)
      exact ⟨_, .write hne (.silverCustomers (hfinds.present .cdcCustomers _) ht'),
        congrArg (Option.map _) ht', hkeep⟩
    | silverOrderItems =>
      obtain ⟨t', ht'⟩ := exists_silverOrderItems hs₁ (hfinds.present .cdcOrderItems _)
        s₁.silver.orders
      exact ⟨_, .write hne (.silverOrderItems (hfinds.present .cdcOrderItems _) ht'),
        congrArg (Option.map _) ht', hkeep⟩
    | goldDailyRevenue | goldCustomerMetrics => simp [silverJobs] at hsilver

/-- The write after those that are done is a new one. -/
theorem of_split {jobs done rest : List Job} {j : Job} (hnodup : jobs.Nodup)
    (hsplit : jobs = done ++ j :: rest) : j ∈ jobs ∧ j ∉ done := by
  subst hsplit
  rw [List.nodup_append] at hnodup
  exact ⟨List.mem_append_right _ (.head _), fun hdone => hnodup.2.2 _ hdone _ (.head _) rfl⟩

theorem done_snoc {P : Prop} {done : List Job} {j k : Job} :
    (k ∈ done ++ [j] → P) ↔ (k ∈ done → P) ∧ (j = k → P) := by
  rw [List.mem_append, List.mem_singleton, or_imp, @eq_comm _ j]

/-- The next write of the batch goes through. -/
theorem RoundOf.write {e : DagEnv bucketHash} {s s₁ : Lake bucketHash} (hs : LakeSound s)
    (hfinds : Finds jsonDumps s e) {gold : Dbt.Gold} {done rest : List Job} {j : Job}
    (hsplit : airflowJobs = done ++ j :: rest) {t : Quality.Tables bucketHash}
    (h : RoundOf jsonDumps s e gold done t s₁) :
    ∃ t' s', jobWrite e j t = some t' ∧ RoundOf jsonDumps s e gold (done ++ [j]) t' s' := by
  obtain ⟨hrun, hmatches, rfl, hevents⟩ := h
  obtain ⟨bronze, silver, gold⟩ := t
  obtain ⟨rfl, rfl⟩ := hmatches
  obtain ⟨hmem, hnot⟩ := of_split airflowJobs_nodup hsplit
  obtain ⟨s', hstep, hwrite, hread⟩ := exists_freshStep hs hfinds hrun hmem hnot gold
  refine ⟨_, s', hwrite, hrun.snoc hstep, ⟨rfl, rfl⟩, rfl, ?_⟩
  rw [done_snoc, ← and_assoc, ← hevents]
  exact hread

/-- **The batch is a round**, whole when the task succeeds: when nothing breaks a job off. -/
theorem batchScript_round {e : DagEnv bucketHash} {s : Lake bucketHash} (hs : LakeSound s)
    (hfinds : Finds jsonDumps s e) {p : Platform bucketHash} (hmatches : Matches s p.tables) :
    ∃ done s', done <+: airflowJobs ∧
      RoundOf jsonDumps s e p.tables.gold done (e.batchScript p).2.tables s' ∧
      ((e.batchScript p).1 = true ↔ ∀ i ≤ 7, e.breaks i = false) ∧
      ((e.batchScript p).1 = true → done = airflowJobs) := by
  have hstart : RoundOf jsonDumps s e p.tables.gold [] p.tables s :=
    ⟨.nil s, hmatches, rfl, by simp [hmatches.bronze]⟩
  have hstep : ∀ done j rest t, [] ++ airflowJobs = done ++ j :: rest →
      (∃ s₁, RoundOf jsonDumps s e p.tables.gold done t s₁) →
      ∃ t', jobWrite e j t = some t' ∧
        ∃ s', RoundOf jsonDumps s e p.tables.gold (done ++ [j]) t' s' := by
    rintro done j rest t hsplit ⟨s₁, h⟩
    obtain ⟨t', s', hwrite, hround⟩ := h.write hs hfinds hsplit
    exact ⟨t', hwrite, s', hround⟩
  obtain ⟨done, -, hdone, ⟨s', hround⟩, hiff, hall⟩ :=
    @runWrites_spec _ _ e.breaks _ _ [] airflowJobs p.tables hstep ⟨s, hstart⟩
  rw [← batchWrites_eq] at hround hiff hall
  simp only [List.length_nil, Nat.zero_add] at hround hiff hall
  exact ⟨done, s', hdone, hround, hiff, hall⟩

/-! ## Tasks -/

/-- The pod of a task starts in time and lives until its script has ended. -/
structure PodRuns (e : DagEnv bucketHash) (task : TaskId) : Prop where
  starts : e.podStarts task = true
  lasts : e.podLasts task = true

/-- What lets each of the tasks succeed on a healthy lake. -/
structure BatchRuns (e : DagEnv bucketHash) : Prop where
  pod : PodRuns e .batchBronzeSilver
  jobs : ∀ i ≤ 7, e.breaks i = false

/-- What lets the build succeed on a lake whose Silver shows the source. -/
structure DbtRuns (e : DagEnv bucketHash) : Prop where
  pod : PodRuns e .dbtBuildGold
  pip : ∃ attempt ∈ [1, 2, 3, 4, 5], e.pipDbt attempt = true
  trino : ∀ node ∈ Dbt.nodes, e.replies node = .answered

/-- What lets the gate succeed on some tables: its runner ends with 0 on what it is told of them. -/
structure GateRuns (e : DagEnv bucketHash) (tables : Quality.Tables bucketHash) : Prop where
  pod : PodRuns e .qualityGate
  pip : ∃ attempt ∈ [1, 2, 3, 4, 5], e.pipGate attempt = true
  green : Quality.main allLayers (e.gate tables) = 0

/-- What lets the lineage succeed. -/
structure LineageRuns (e : DagEnv bucketHash) : Prop where
  pod : PodRuns e .registerLineage
  posts : ∀ i < 6, accepted (e.respond i) = true

/-- What lets a model be built, also when the task fails for another reason. -/
structure ModelBuilt (e : DagEnv bucketHash) (model : String) : Prop where
  starts : e.podStarts .dbtBuildGold = true
  pip : ∃ attempt ∈ [1, 2, 3, 4, 5], e.pipDbt attempt = true
  query : e.replies model ≠ .failed

/-- When a task succeeds. -/
theorem inPod_success {e : DagEnv bucketHash} {task : TaskId}
    {script : Platform bucketHash → Bool × Platform bucketHash} {p : Platform bucketHash} :
    (e.inPod task script p).1 = true ↔ PodRuns e task ∧ (script p).1 = true := by
  have hpod : PodRuns e task ↔ e.podStarts task = true ∧ e.podLasts task = true :=
    ⟨fun h => ⟨h.starts, h.lasts⟩, fun h => ⟨h.1, h.2⟩⟩
  rw [hpod]
  unfold DagEnv.inPod
  cases e.podStarts task <;> simp [and_comm]

/-- What a task leaves, also when its pod dies. -/
theorem inPod_snd (e : DagEnv bucketHash) (task : TaskId)
    (script : Platform bucketHash → Bool × Platform bucketHash) (p : Platform bucketHash) :
    (e.inPod task script p).2 = if e.podStarts task then (script p).2 else p := by
  unfold DagEnv.inPod
  split <;> rfl

/-- A task whose script leaves a part of the platform alone does. -/
theorem inPod_keeps {β : Type} {e : DagEnv bucketHash} {task : TaskId}
    {script : Platform bucketHash → Bool × Platform bucketHash} {p : Platform bucketHash}
    {f : Platform bucketHash → β} (h : f (script p).2 = f p) :
    f (e.inPod task script p).2 = f p := by
  rw [inPod_snd]
  split
  · exact h
  · rfl

/-! ## Tasks of a healthy lake -/

/-- The task writes a round of the lake, and nothing but Bronze and Silver. -/
theorem batch_task {e : DagEnv bucketHash} {s : Lake bucketHash} (hs : LakeSound s)
    (hfinds : Finds jsonDumps s e) {p : Platform bucketHash} (hmatches : Matches s p.tables) :
    ∃ done s', done <+: airflowJobs ∧
      RoundOf jsonDumps s e p.tables.gold done
        (e.inPod .batchBronzeSilver e.batchScript p).2.tables s' ∧
      (e.inPod .batchBronzeSilver e.batchScript p).2.marquez = p.marquez ∧
      ((e.inPod .batchBronzeSilver e.batchScript p).1 = true ↔ BatchRuns e) ∧
      (BatchRuns e → done = airflowJobs) := by
  have hmarquez : (e.inPod .batchBronzeSilver e.batchScript p).2.marquez = p.marquez :=
    inPod_keeps (f := Platform.marquez) rfl
  obtain ⟨done, s', hdone, hround, hiff, hall⟩ := batchScript_round hs hfinds hmatches
  have hruns : (e.inPod .batchBronzeSilver e.batchScript p).1 = true ↔ BatchRuns e :=
    inPod_success.trans ⟨fun h => ⟨h.1, hiff.1 h.2⟩, fun h => ⟨h.pod, hiff.2 h.jobs⟩⟩
  rw [inPod_snd] at hmarquez ⊢
  cases hpod : e.podStarts .batchBronzeSilver with
  | true =>
    refine ⟨done, s', hdone, ?_, ?_, hruns, fun h => hall (hiff.2 h.jobs)⟩
    · exact hround
    · rwa [hpod] at hmarquez
  | false =>
    refine ⟨[], s, List.nil_prefix, ?_, rfl, hruns, fun h => ?_⟩
    · exact ⟨.nil s, hmatches, rfl, by simp [hmatches.bronze]⟩
    · have hstarts := h.pod.starts
      rw [hpod] at hstarts
      cases hstarts

/-- What the task leaves in Gold, from the Silver tables of a lake. -/
def builtGold (e : DagEnv bucketHash) (silver : Silver bucketHash) (gold : Dbt.Gold) : Dbt.Gold :=
  if e.podStarts .dbtBuildGold && pipInstall e.pipDbt then
    (Dbt.dbtBuildWith e.replies e.clock silver gold).gold
  else gold

section BuiltGold

variable {e : DagEnv bucketHash} {silver : Silver bucketHash} {gold : Dbt.Gold}

/-- Each table is built or stays. -/
theorem builtGold_of_starts (hstarts : e.podStarts .dbtBuildGold = true)
    (hpip : ∃ attempt ∈ [1, 2, 3, 4, 5], e.pipDbt attempt = true) :
    builtGold e silver gold =
      ⟨if e.replies "daily_revenue" = .failed then gold.dailyRevenue
        else (Dbt.dbtBuild e.clock silver gold).gold.dailyRevenue,
      if e.replies "customer_metrics" = .failed then gold.customerMetrics
        else (Dbt.dbtBuild e.clock silver gold).gold.customerMetrics⟩ := by
  rw [builtGold, hstarts, pipInstall_iff.2 hpip, ← dbtBuildWith_gold]
  rfl

/-- Without its pod or its packages the task builds nothing. -/
theorem builtGold_of_not (h : ¬ (e.podStarts .dbtBuildGold = true ∧
    ∃ attempt ∈ [1, 2, 3, 4, 5], e.pipDbt attempt = true)) : builtGold e silver gold = gold := by
  rw [← pipInstall_iff, ← Bool.and_eq_true] at h
  exact if_neg h

/-- A model whose query is carried out has the rows of a whole build. -/
theorem builtGold_dailyRevenue (h : ModelBuilt e "daily_revenue") :
    (builtGold e silver gold).dailyRevenue =
      (Dbt.dbtBuild e.clock silver gold).gold.dailyRevenue := by
  rw [builtGold_of_starts h.starts h.pip]
  exact if_neg h.query

theorem builtGold_customerMetrics (h : ModelBuilt e "customer_metrics") :
    (builtGold e silver gold).customerMetrics =
      (Dbt.dbtBuild e.clock silver gold).gold.customerMetrics := by
  rw [builtGold_of_starts h.starts h.pip]
  exact if_neg h.query

/-- A task that succeeds has built every model. -/
theorem DbtRuns.modelBuilt (h : DbtRuns e) {model : String} (hmodel : model ∈ Dbt.nodes) :
    ModelBuilt e model := by
  refine ⟨h.pod.starts, h.pip, ?_⟩
  rw [h.trino model hmodel]
  exact Dbt.Reply.noConfusion

/-- A task that succeeds has built both tables. -/
theorem builtGold_of_runs (h : DbtRuns e) :
    builtGold e silver gold = (Dbt.dbtBuild e.clock silver gold).gold := by
  have hdaily := @builtGold_dailyRevenue _ e silver gold (h.modelBuilt (by decide))
  have hmetrics := @builtGold_customerMetrics _ e silver gold (h.modelBuilt (by decide))
  exact congrArg₂ Dbt.Gold.mk hdaily hmetrics

/-- A model whose query is not carried out keeps its rows. -/
theorem builtGold_keeps_dailyRevenue (h : ¬ ModelBuilt e "daily_revenue") :
    (builtGold e silver gold).dailyRevenue = gold.dailyRevenue := by
  by_cases hruns : e.podStarts .dbtBuildGold = true ∧
      ∃ attempt ∈ [1, 2, 3, 4, 5], e.pipDbt attempt = true
  · rw [builtGold_of_starts hruns.1 hruns.2]
    exact if_pos (not_not.1 fun hquery => h ⟨hruns.1, hruns.2, hquery⟩)
  · rw [builtGold_of_not hruns]

theorem builtGold_keeps_customerMetrics (h : ¬ ModelBuilt e "customer_metrics") :
    (builtGold e silver gold).customerMetrics = gold.customerMetrics := by
  by_cases hruns : e.podStarts .dbtBuildGold = true ∧
      ∃ attempt ∈ [1, 2, 3, 4, 5], e.pipDbt attempt = true
  · rw [builtGold_of_starts hruns.1 hruns.2]
    exact if_pos (not_not.1 fun hquery => h ⟨hruns.1, hruns.2, hquery⟩)
  · rw [builtGold_of_not hruns]

end BuiltGold

/-- The task builds the tables whose queries are carried out, and leaves everything else alone. -/
theorem dbt_task {e : DagEnv bucketHash} {s : Lake bucketHash} (hshows : SilverShowsSource s)
    (hfits : OrdersFit s.source.db) {p : Platform bucketHash} (hmatches : Matches s p.tables) :
    ((e.inPod .dbtBuildGold e.dbtScript p).1 = true ↔ DbtRuns e) ∧
      (e.inPod .dbtBuildGold e.dbtScript p).2 =
        { p with tables := ⟨s.bronze, s.silver, builtGold e s.silver p.tables.gold⟩ } := by
  obtain ⟨⟨bronze, silver, gold⟩, marquez⟩ := p
  obtain ⟨rfl, rfl⟩ := hmatches
  obtain ⟨hexit, -, -⟩ := dbtBuild_of_silverShows hshows hfits e.clock gold
  have hbuildable := (dbtBuild_exitCode e.clock s.silver gold).1 hexit
  constructor
  · rw [inPod_success, DagEnv.dbtScript]
    cases hpip : pipInstall e.pipDbt with
    | false =>
      refine iff_of_false (fun h => Bool.false_ne_true h.2) fun h => ?_
      rw [pipInstall_iff.2 h.pip] at hpip
      cases hpip
    | true =>
      rw [if_pos rfl, decide_eq_true_eq, dbtBuildWith_exitCode, and_iff_left hbuildable]
      exact ⟨fun h => ⟨h.1, pipInstall_iff.1 hpip, h.2⟩, fun h => ⟨h.pod, h.trino⟩⟩
  · rw [inPod_snd, DagEnv.dbtScript, builtGold]
    cases e.podStarts .dbtBuildGold with
    | false => rfl
    | true => cases pipInstall e.pipDbt <;> rfl

/-- What the gate comes to; it only reads. -/
theorem gate_task {e : DagEnv bucketHash} {p : Platform bucketHash} :
    ((e.inPod .qualityGate e.gateScript p).1 = true ↔ GateRuns e p.tables) ∧
      (e.inPod .qualityGate e.gateScript p).2 = p := by
  constructor
  · rw [inPod_success, DagEnv.gateScript, Bool.and_eq_true, pipInstall_iff, decide_eq_true_eq]
    exact ⟨fun h => ⟨h.1, h.2.1, h.2.2⟩, fun h => ⟨h.pod, h.pip, h.green⟩⟩
  · rw [inPod_snd]
    split <;> rfl

/-- What the task adds to Marquez. -/
theorem lineage_task (e : DagEnv bucketHash) (p : Platform bucketHash) :
    ((e.inPod .registerLineage e.lineageScript p).1 = true ↔ LineageRuns e) ∧
      (e.inPod .registerLineage e.lineageScript p).2.tables = p.tables ∧
      ∃ posted, posted <+: buildEvents e.uuid e.now "lakehouse" ∧
        (e.inPod .registerLineage e.lineageScript p).2.marquez = p.marquez ++ posted ∧
        (LineageRuns e → posted = buildEvents e.uuid e.now "lakehouse") := by
  have hposts : (registerLineage e.uuid e.now "lakehouse" e.respond).1 = 0 ↔
      ∀ i < 6, accepted (e.respond i) = true := by
    rw [registerLineage, postEvents_exitCode]
    simp only [Nat.zero_add]
    rfl
  refine ⟨?_, inPod_keeps (f := Platform.tables) rfl, ?_⟩
  · rw [inPod_success, DagEnv.lineageScript, decide_eq_true_eq, hposts]
    exact ⟨fun h => ⟨h.1, h.2⟩, fun h => ⟨h.pod, h.posts⟩⟩
  · rw [inPod_snd]
    cases hpod : e.podStarts .registerLineage with
    | false =>
      refine ⟨[], List.nil_prefix, (List.append_nil _).symm, fun h => ?_⟩
      have hstarts := h.pod.starts
      rw [hpod] at hstarts
      cases hstarts
    | true =>
      exact ⟨_, postEvents_isPrefixOf 0 _, rfl, fun h => postEvents_of_exitCode (hposts.2 h.posts)⟩

/-! ## The run -/

/-- What a run of the DAG comes to: how far the tasks get, what each table of Gold shows and what
`register_lineage` tells Marquez. -/
structure DagOutcome (e : DagEnv bucketHash) (p : Platform bucketHash) (db : Database) : Prop where
  chain : ∃ k ≤ 4, (e.lakehouseBatch p).1 = chainStates 4 k
  batch : (e.lakehouseBatch p).1[0]? = some .success ↔ BatchRuns e
  dbt : (e.lakehouseBatch p).1[1]? = some .success ↔ BatchRuns e ∧ DbtRuns e
  gate : (e.lakehouseBatch p).1[2]? = some .success ↔
    BatchRuns e ∧ DbtRuns e ∧ GateRuns e (e.lakehouseBatch p).2.tables
  lineage : (e.lakehouseBatch p).1[3]? = some .success ↔
    BatchRuns e ∧ DbtRuns e ∧ GateRuns e (e.lakehouseBatch p).2.tables ∧ LineageRuns e
  revenueShows : BatchRuns e → ModelBuilt e "daily_revenue" →
    ShowsRevenue (e.lakehouseBatch p).2.tables.gold.dailyRevenue db
  revenueKept : ¬ (BatchRuns e ∧ ModelBuilt e "daily_revenue") →
    (e.lakehouseBatch p).2.tables.gold.dailyRevenue = p.tables.gold.dailyRevenue
  metricsShow : BatchRuns e → ModelBuilt e "customer_metrics" →
    ShowsMetrics (e.lakehouseBatch p).2.tables.gold.customerMetrics db db e.clock.today
  metricsKept : ¬ (BatchRuns e ∧ ModelBuilt e "customer_metrics") →
    (e.lakehouseBatch p).2.tables.gold.customerMetrics = p.tables.gold.customerMetrics
  marquez : ∃ posted, posted <+: buildEvents e.uuid e.now "lakehouse" ∧
    (e.lakehouseBatch p).2.marquez = p.marquez ++ posted ∧
    (posted ≠ [] → (e.lakehouseBatch p).1[2]? = some .success) ∧
    ((e.lakehouseBatch p).1[3]? = some .success →
      posted = buildEvents e.uuid e.now "lakehouse")

/-- What lets the `i`-th task succeed on a healthy lake. -/
def TaskRuns (e : DagEnv bucketHash) (tables : Quality.Tables bucketHash) : Nat → Prop
  | 0 => BatchRuns e
  | 1 => DbtRuns e
  | 2 => GateRuns e tables
  | _ => LineageRuns e

/-- What `ran` tasks leave of which `k` have succeeded; `s` is the lake when the batch has ended. -/
structure Left (s : Lake bucketHash) (e : DagEnv bucketHash) (p : Platform bucketHash)
    (ran k : Nat) (p' : Platform bucketHash) : Prop where
  runs : ∀ i < k, TaskRuns e p'.tables i
  tables : Matches s p'.tables
  gold : p'.tables.gold =
    if 1 < ran then builtGold e s.silver p.tables.gold else p.tables.gold
  marquez : ∃ posted, posted <+: buildEvents e.uuid e.now "lakehouse" ∧
    p'.marquez = p.marquez ++ posted ∧ (ran < 4 → posted = []) ∧
      (3 < k → posted = buildEvents e.uuid e.now "lakehouse")

/-- What is reached before the next task runs. -/
def Reached (s : Lake bucketHash) (e : DagEnv bucketHash) (p : Platform bucketHash) :
    Nat → Platform bucketHash → Prop
  | 0, p' => p' = p
  | k + 1, p' => Left s e p (k + 1) (k + 1) p'

section Left

variable {e : DagEnv bucketHash} {s₀ s : Lake bucketHash} {p p' : Platform bucketHash}
  {done : List Job} {ran k : Nat}

/-- What a task leaves that sends nothing. -/
theorem Left.of_quiet (hruns : ∀ i < k, TaskRuns e p'.tables i) (htables : Matches s p'.tables)
    (hgold : p'.tables.gold =
      if 1 < ran then builtGold e s.silver p.tables.gold else p.tables.gold)
    (hmarquez : p'.marquez = p.marquez) (hk : k ≤ 3) : Left s e p ran k p' :=
  ⟨hruns, htables, hgold, [], List.nil_prefix, hmarquez.trans (List.append_nil _).symm,
    fun _ => rfl, fun h => absurd hk (Nat.not_le.2 h)⟩

/-- Before the lineage nothing is sent. -/
theorem Left.marquez_eq (h : Left s e p ran k p') (hran : ran < 4) : p'.marquez = p.marquez := by
  obtain ⟨posted, -, hmarquez, hnone, -⟩ := h.marquez
  rw [hmarquez, hnone hran, List.append_nil]

theorem taskRuns_next {tables : Quality.Tables bucketHash}
    (h : ∀ i < k, TaskRuns e tables i) (hnext : TaskRuns e tables k) :
    ∀ i < k + 1, TaskRuns e tables i := by
  intro i hi
  rcases Nat.lt_succ_iff_lt_or_eq.1 hi with hi | rfl
  · exact h i hi
  · exact hnext

/-- The batch, which writes a round or a part of one. -/
theorem Left.batch (hround : RoundOf jsonDumps s₀ e p.tables.gold done
      (e.inPod .batchBronzeSilver e.batchScript p).2.tables s)
    (hmarquez : (e.inPod .batchBronzeSilver e.batchScript p).2.marquez = p.marquez)
    (hbatch : (e.inPod .batchBronzeSilver e.batchScript p).1 = true ↔ BatchRuns e) :
    let task := e.inPod .batchBronzeSilver e.batchScript
    ((task p).1 = true → Left s e p 1 1 (task p).2) ∧
      ((task p).1 = false → Left s e p 1 0 (task p).2 ∧ ¬ BatchRuns e) := by
  intro task
  have hleft : ∀ k ≤ 1, (∀ i < k, TaskRuns e (task p).2.tables i) → Left s e p 1 k (task p).2 :=
    fun k hk hruns => .of_quiet hruns hround.tables hround.gold hmarquez (hk.trans (by decide))
  constructor
  · intro hsuccess
    refine hleft 1 le_rfl fun i hi => ?_
    obtain rfl := Nat.lt_one_iff.1 hi
    exact hbatch.1 hsuccess
  · intro hfailure
    exact ⟨hleft 0 (by decide) fun i hi => absurd hi (Nat.not_lt_zero i),
      mt hbatch.2 (Bool.eq_false_iff.1 hfailure)⟩

/-- The build, which may build one table and fail. -/
theorem Left.dbt (h : Left s e p 1 1 p') (hshows : SilverShowsSource s)
    (hfits : OrdersFit s.source.db) :
    let task := e.inPod .dbtBuildGold e.dbtScript
    ((task p').1 = true → Left s e p 2 2 (task p').2) ∧
      ((task p').1 = false → Left s e p 2 1 (task p').2 ∧ ¬ DbtRuns e) := by
  intro task
  obtain ⟨hruns, hleft⟩ := dbt_task (e := e) hshows hfits h.tables
  have hbatch : ∀ tables, ∀ i < 1, TaskRuns e tables i := by
    intro tables i hi
    obtain rfl := Nat.lt_one_iff.1 hi
    exact h.runs 0 (by decide)
  have hgold : p'.tables.gold = p.tables.gold := h.gold
  have hquiet : ∀ k ≤ 3, (∀ tables, ∀ i < k, TaskRuns e tables i) →
      Left s e p 2 k (task p').2 := by
    intro k hk hall
    rw [show (task p').2 = _ from hleft]
    exact .of_quiet (hall _) ⟨rfl, rfl⟩ (congrArg (builtGold e s.silver) hgold)
      (h.marquez_eq (by decide)) hk
  constructor
  · intro hsuccess
    exact hquiet 2 (by decide) fun tables => taskRuns_next (hbatch tables) (hruns.1 hsuccess)
  · intro hfailure
    exact ⟨hquiet 1 (by decide) hbatch, mt hruns.2 (Bool.eq_false_iff.1 hfailure)⟩

/-- The gate, which only reads. -/
theorem Left.gate (h : Left s e p 2 2 p') :
    let task := e.inPod .qualityGate e.gateScript
    ((task p').1 = true → Left s e p 3 3 (task p').2) ∧
      ((task p').1 = false → Left s e p 3 2 (task p').2 ∧ ¬ GateRuns e (task p').2.tables) := by
  intro task
  obtain ⟨hruns, hleft⟩ := @gate_task _ e p'
  have hmarquez := h.marquez_eq (by decide)
  rw [show (task p').2 = p' from hleft]
  constructor
  · intro hsuccess
    exact .of_quiet (taskRuns_next h.runs (hruns.1 hsuccess)) h.tables h.gold hmarquez le_rfl
  · intro hfailure
    exact ⟨.of_quiet h.runs h.tables h.gold hmarquez (by decide),
      mt hruns.2 (Bool.eq_false_iff.1 hfailure)⟩

/-- The lineage, which Marquez may have heard in part when the task fails. -/
theorem Left.lineage (h : Left s e p 3 3 p') :
    let task := e.inPod .registerLineage e.lineageScript
    ((task p').1 = true → Left s e p 4 4 (task p').2) ∧
      ((task p').1 = false → Left s e p 4 3 (task p').2 ∧ ¬ LineageRuns e) := by
  intro task
  obtain ⟨hruns, htables, posted, hposted, hheard, hall⟩ := lineage_task e p'
  replace htables : (task p').2.tables = p'.tables := htables
  rw [h.marquez_eq (by decide)] at hheard
  have hmatches : Matches s (task p').2.tables := htables ▸ h.tables
  have hgold : (task p').2.tables.gold = builtGold e s.silver p.tables.gold := htables ▸ h.gold
  have hbefore : ∀ i < 3, TaskRuns e (task p').2.tables i := htables ▸ h.runs
  constructor
  · intro hsuccess
    have hlineage : LineageRuns e := hruns.1 hsuccess
    exact ⟨taskRuns_next hbefore hlineage, hmatches, hgold, posted, hposted, hheard,
      fun h => absurd h (by decide), fun _ => hall hlineage⟩
  · intro hfailure
    exact ⟨⟨hbefore, hmatches, hgold, posted, hposted, hheard, fun h => absurd h (by decide),
      fun h => absurd h (by decide)⟩, mt hruns.2 (Bool.eq_false_iff.1 hfailure)⟩

/-- What a run of the DAG leaves, and that the task after `k` tasks does not succeed. -/
theorem lakehouseBatch_left (hround : RoundOf jsonDumps s₀ e p.tables.gold done
      (e.inPod .batchBronzeSilver e.batchScript p).2.tables s)
    (hmarquez : (e.inPod .batchBronzeSilver e.batchScript p).2.marquez = p.marquez)
    (hbatch : (e.inPod .batchBronzeSilver e.batchScript p).1 = true ↔ BatchRuns e)
    (hshows : BatchRuns e → SilverShowsSource s) (hfits : OrdersFit s.source.db) :
    ∃ k ≤ 4, (e.lakehouseBatch p).1 = chainStates 4 k ∧
      Left s e p (min (k + 1) 4) k (e.lakehouseBatch p).2 ∧
      (k < 4 → ¬ TaskRuns e (e.lakehouseBatch p).2.tables k) := by
  obtain ⟨k, hk, hstates, hfailed, hreached⟩ := @runTasks_rule _
    [e.inPod .batchBronzeSilver e.batchScript, e.inPod .dbtBuildGold e.dbtScript,
      e.inPod .qualityGate e.gateScript, e.inPod .registerLineage e.lineageScript] p (Reached s e p)
    (fun k p' => Left s e p (k + 1) k p' ∧ ¬ TaskRuns e p'.tables k) (fun i task htask p' hp' => by
      match i, hp' with
      | 0, hp' =>
        obtain rfl := Option.some.inj htask
        obtain rfl : p' = p := hp'
        exact Left.batch hround hmarquez hbatch
      | 1, hp' =>
        obtain rfl := Option.some.inj htask
        exact Left.dbt hp' (hshows (hp'.runs 0 (by decide))) hfits
      | 2, hp' =>
        obtain rfl := Option.some.inj htask
        exact Left.gate hp'
      | 3, hp' =>
        obtain rfl := Option.some.inj htask
        exact Left.lineage hp') rfl
  rcases Nat.lt_or_eq_of_le hk with hlt | rfl
  · obtain ⟨hleft, hstop⟩ := hfailed hlt
    have hmin : min (k + 1) 4 = k + 1 := Nat.min_eq_left (Nat.succ_le_of_lt hlt)
    refine ⟨k, hk, hstates, ?_, fun _ => hstop⟩
    rw [hmin]
    exact hleft
  · exact ⟨4, le_rfl, hstates, hreached rfl, fun h => absurd h (by decide)⟩

/-- What is left tells the outcome, when the task after `k` tasks does not succeed. -/
theorem Left.outcome (h : Left s e p (min (k + 1) 4) k (e.lakehouseBatch p).2) (hk : k ≤ 4)
    (hstates : (e.lakehouseBatch p).1 = chainStates 4 k)
    (hstop : k < 4 → ¬ TaskRuns e (e.lakehouseBatch p).2.tables k) {db : Database}
    (hshows : BatchRuns e →
      ShowsRevenue (Dbt.dbtBuild e.clock s.silver p.tables.gold).gold.dailyRevenue db ∧
        ShowsMetrics (Dbt.dbtBuild e.clock s.silver p.tables.gold).gold.customerMetrics db db
          e.clock.today) : DagOutcome e p db := by
  have hiff : ∀ i < 4, i < k ↔ ∀ j ≤ i, TaskRuns e (e.lakehouseBatch p).2.tables j := by
    intro i hi
    constructor
    · intro hik j hj
      exact h.runs j (hj.trans_lt hik)
    · intro hall
      by_contra hle
      exact hstop ((Nat.not_lt.1 hle).trans_lt hi) (hall k (Nat.not_lt.1 hle))
  have hbatch : 0 < k ↔ BatchRuns e := (hiff 0 (by decide)).trans (by simp [TaskRuns])
  have hsuccess : ∀ i < 4, (e.lakehouseBatch p).1[i]? = some .success ↔ i < k := by
    intro i hi
    rw [hstates]
    exact chainStates_getElem hi
  -- the Gold tables are touched when the second task runs
  have hbuilt : BatchRuns e →
      (e.lakehouseBatch p).2.tables.gold = builtGold e s.silver p.tables.gold := by
    intro hruns
    have hpos := hbatch.2 hruns
    rw [h.gold, if_pos (by omega)]
  have hkept : ¬ BatchRuns e → (e.lakehouseBatch p).2.tables.gold = p.tables.gold := by
    intro hnot
    have hzero := Nat.not_lt.1 (mt hbatch.1 hnot)
    rw [h.gold, if_neg (by omega)]
  constructor
  · exact ⟨k, hk, hstates⟩
  · exact (hsuccess 0 (by decide)).trans hbatch
  · rw [hsuccess 1 (by decide), hiff 1 (by decide)]
    simp [Nat.le_one_iff_eq_zero_or_eq_one, TaskRuns]
  · rw [hsuccess 2 (by decide), hiff 2 (by decide)]
    constructor
    · intro hall
      exact ⟨hall 0 (by decide), hall 1 (by decide), hall 2 le_rfl⟩
    · intro hall j hj
      interval_cases j
      exacts [hall.1, hall.2.1, hall.2.2]
  · rw [hsuccess 3 (by decide), hiff 3 (by decide)]
    constructor
    · intro hall
      exact ⟨hall 0 (by decide), hall 1 (by decide), hall 2 (by decide), hall 3 le_rfl⟩
    · intro hall j hj
      interval_cases j
      exacts [hall.1, hall.2.1, hall.2.2.1, hall.2.2.2]
  · intro hruns hmodel
    rw [hbuilt hruns, builtGold_dailyRevenue hmodel]
    exact (hshows hruns).1
  · intro hnot
    by_cases hruns : BatchRuns e
    · rw [hbuilt hruns, builtGold_keeps_dailyRevenue fun hmodel => hnot ⟨hruns, hmodel⟩]
    · rw [hkept hruns]
  · intro hruns hmodel
    rw [hbuilt hruns, builtGold_customerMetrics hmodel]
    exact (hshows hruns).2
  · intro hnot
    by_cases hruns : BatchRuns e
    · rw [hbuilt hruns, builtGold_keeps_customerMetrics fun hmodel => hnot ⟨hruns, hmodel⟩]
    · rw [hkept hruns]
  · obtain ⟨posted, hposted, hheard, hnone, hall⟩ := h.marquez
    rw [hsuccess 2 (by decide), hsuccess 3 (by decide)]
    refine ⟨posted, hposted, hheard, fun hsome => ?_, hall⟩
    by_contra hle
    exact hsome (hnone (by omega))

end Left

/-- **A run of the DAG on a healthy lake.** Its tables are those of a healthy run again, whatever
fails. Each table of Gold shows the source as soon as its query is carried out, so also when another
node fails or the gate is red after that. The events of `register_lineage` reach Marquez after a
green gate only. If Trino answers the gate, the only thing about the tables that can turn it red is
that no event has landed. -/
theorem lakehouseBatch_outcome (hdumps : ∀ row, 2 ≤ (jsonDumps row).length) {t : Int}
    {s : Lake bucketHash} (hrun : HealthyRun jsonDumps t s) (htimes : TimesTell s.source.commits)
    (hfits : OrdersFit s.source.db) {e : DagEnv bucketHash} (hfinds : Finds jsonDumps s e)
    {p : Platform bucketHash} (hmatches : Matches s p.tables) :
    (∃ s', HealthyRun jsonDumps t s' ∧ s'.source = s.source ∧
      Matches s' (e.lakehouseBatch p).2.tables) ∧ DagOutcome e p s.source.db ∧
    ((∀ tables, ReadsTables (e.gate tables) tables) → BuiltOn t e.clock.today →
      BatchRuns e → DbtRuns e →
        (Quality.main allLayers (e.gate (e.lakehouseBatch p).2.tables) = 0 ↔
          p.tables.bronze.kafkaEvents ≠ 0 ∨ e.topics .events rawEventsTopic ≠ [])) := by
  obtain ⟨q, hquiet⟩ := hrun.quietRun
  have hs := hquiet.lakeRun.sound (lakeSound_start q)
  obtain ⟨done, s', hdone, hround, hmarquez, hbatch, hall⟩ := batch_task hs hfinds hmatches
  have hairflow : airflowJobs <+: batch := ⟨[.goldDailyRevenue, .goldCustomerMetrics], rfl⟩
  have hordered : Ordered done := ordered_batch.of_prefix <| hdone.trans hairflow
  have hrun' : HealthyRun jsonDumps t s' := .round hrun hordered hround.run
  have hsource := hround.run.jobRun.source_eq
  have hfits' : OrdersFit s'.source.db := hsource ▸ hfits
  have hwhole : BatchRuns e → BronzeShowsSource s' ∧ SilverShowsSource s' := fun hB =>
    hrun.round_shows htimes hordered hround.run fun _ hj => hall hB ▸ hj
  obtain ⟨k, hk, hstates, hleft, hstop⟩ := lakehouseBatch_left hround hmarquez hbatch
    (fun hB => (hwhole hB).2) hfits'
  have houtcome : DagOutcome e p s.source.db := by
    refine hleft.outcome hk hstates hstop fun hB => ?_
    obtain ⟨-, hrevenue, hmetrics⟩ :=
      dbtBuild_of_silverShows (hwhole hB).2 hfits' e.clock p.tables.gold
    rw [hsource] at hrevenue hmetrics
    exact ⟨hrevenue, hmetrics⟩
  refine ⟨⟨s', hrun', hsource, hleft.tables⟩, houtcome, fun hgate hbuilt hB hD => ?_⟩
  have hlanded : s'.bronze.kafkaEvents ≠ 0 ↔
      p.tables.bronze.kafkaEvents ≠ 0 ∨ e.topics .events rawEventsTopic ≠ [] := by
    have hread : Job.ingest .events ∈ done := hall hB ▸ by decide
    rw [← hround.tables.bronze, Ne, hround.events, hmatches.bronze, not_and_or]
    simp only [hread, true_imp_iff, Ne]
  -- what the gate reads are the tables of the lake and the build
  have hran : 1 < k := by
    have hdbt := houtcome.dbt.2 ⟨hB, hD⟩
    rw [hstates] at hdbt
    exact (chainStates_getElem (by decide)).1 hdbt
  have htables : (e.lakehouseBatch p).2.tables = ⟨s'.bronze, s'.silver,
      (Dbt.dbtBuild e.clock s'.silver p.tables.gold).gold⟩ := by
    have hgold := hleft.gold
    rw [if_pos (by omega), builtGold_of_runs hD] at hgold
    rw [← hgold, ← hleft.tables.bronze, ← hleft.tables.silver]
  have hreads := hgate (e.lakehouseBatch p).2.tables
  rw [htables] at hreads ⊢
  exact ((hrun'.healthy hdumps).gate_iff (hwhole hB).1 (hwhole hB).2 hfits' hbuilt hreads).trans
    hlanded

end Dag

/-! ### A run on the sample data -/

section Given

/-- Nothing fails, and Spark presents the rows in some order. -/
noncomputable def sampleDag : DagEnv murmurText where
  podStarts _ := true
  podLasts _ := true
  topics _ := sampleTopics
  ingest := sampleEnv
  present _ rows := rows.toList
  breaks _ := false
  pipDbt _ := true
  pipGate _ := true
  replies _ := .answered
  clock := ⟨dataStart, dataStart, Quality.firstDate⟩
  gate := trinoEnv
  uuid i := "00000000-0000-4000-8000-00000000000" ++ i.repr
  now _ := "2024-01-02T17:00:00+00:00"
  respond _ := .ok 201

/-- Before the first run. -/
def emptyPlatform : Platform murmurText where
  tables := ⟨Bronze.empty, Silver.empty, ⟨0, 0⟩⟩
  marquez := []

theorem finds_sampleDag : Finds rateJson sampleLake sampleDag := by
  have hempty : ∀ lane, laneIds sampleLake.bronze lane = 0 := by
    intro lane
    cases lane <;> rfl
  refine ⟨fun _ _ => holds_sampleTopics rfl, fun lane hlane => ?_,
    fun _ _ => loaded_sampleTopics, fun _ rows => rows.coe_toList⟩
  rw [hempty]
  exact freshUuids_sample (length_sampleTopics lane hlane) lane.topic

/-- The first run on the sample data succeeds. -/
theorem lakehouseBatch_outcome_sample :
    DagOutcome sampleDag emptyPlatform sampleStart.db ∧
      (sampleDag.lakehouseBatch emptyPlatform).1[3]? = some .success := by
  obtain ⟨-, houtcome, hgreen⟩ := lakehouseBatch_outcome length_rateJson healthyRun_sampleLake
    timesTell_sample ordersFit_sample finds_sampleDag (p := emptyPlatform) ⟨rfl, rfl⟩
  have hpip : ∃ attempt ∈ [1, 2, 3, 4, 5], (fun _ : Nat => true) attempt = true :=
    ⟨1, .head _, rfl⟩
  have hbatch : BatchRuns sampleDag := ⟨⟨rfl, rfl⟩, fun _ _ => rfl⟩
  have hdbt : DbtRuns sampleDag := ⟨⟨rfl, rfl⟩, hpip, fun _ _ => rfl⟩
  have hevents := (hgreen readsTables_trinoEnv builtOn_sample hbatch hdbt).2
    (.inr (List.cons_ne_nil usdRecord []))
  exact ⟨houtcome, houtcome.lineage.2 ⟨hbatch, hdbt, ⟨⟨rfl, rfl⟩, hpip, hevents⟩,
    ⟨⟨rfl, rfl⟩, fun _ _ => rfl⟩⟩⟩

end Given

end Lakehouse.Verify
