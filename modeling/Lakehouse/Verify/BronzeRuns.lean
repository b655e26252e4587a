import Lakehouse.Batch.Bronze
import Mathlib.Data.Multiset.AddSub

/-!
# Bronze over whole runs

Sequences of records that are appended to the topics and of job runs that each end after some of the
topics. Every row that is landed is tagged with the record it came from, and forgetting the tags
gives the job (`landUpTo_erase`). A run reads a topic from its first record again, so a topic lands
its records once exactly when it is ingested at most once while it holds any
(`bronze_at_most_once_iff`).
-/

namespace Lakehouse.Verify

open Lib Source Batch

/-! ## Topics -/

/-- A record is identified by its topic, its partition and its offset. -/
abbrev RecordId := String × Nat × Nat

/-- The identity of a record. -/
def recordId (r : KafkaRecord) : RecordId := (r.topic, r.partition, r.offset)

/-- What a producer sends. -/
structure Message where
  topic : String
  partition : Nat
  timestamp : Int
  key : Option String
  value : Option String

/-- The number of records of a partition, which is the offset of the next one. -/
def nextOffset (records : List KafkaRecord) (partition : Nat) : Nat :=
  records.countP fun r => r.partition = partition

/-- The record of a message at the end of its partition. -/
def Message.record (m : Message) (topics : Topics) : KafkaRecord where
  topic := m.topic
  partition := m.partition
  offset := nextOffset (topics m.topic) m.partition
  timestamp := m.timestamp
  key := m.key
  value := m.value

/-- A message is appended to its topic. -/
def produce (topics : Topics) (m : Message) : Topics :=
  Function.update topics m.topic (topics m.topic ++ [m.record topics])

/-! ## Tagged runs -/

/-- The records of a topic that a lane makes rows of: of a CDC topic not the tombstones. -/
def landable : Lane → KafkaRecord → Bool
  | .cdc _ _, r => (nonEmpty r.value).isSome
  | .events, _ => true

/-- The records of a topic that land in the table of its lane. -/
def landings (lane : Lane) (topics : Topics) : List KafkaRecord :=
  (topics lane.topic).filter (landable lane)

/-- The Bronze rows with the records they came from. -/
structure Landed where
  cdc : CdcTable → Multiset (RecordId × CdcRow)
  kafkaEvents : Multiset (RecordId × EventRow)

/-- No row has landed. -/
def Landed.empty : Landed := ⟨fun _ => 0, 0⟩

/-- Forget where the rows came from. -/
def Landed.erase (l : Landed) : Bronze where
  cdc table := (l.cdc table).map Prod.snd
  kafkaEvents := l.kafkaEvents.map Prod.snd

/-- The records a lane has landed, once for each row. -/
def Landed.origins (l : Landed) : Lane → Multiset RecordId
  | .cdc _ table => (l.cdc table).map Prod.fst
  | .events => l.kafkaEvents.map Prod.fst

/-- One step of the job, with tags. -/
def landLane (env : String → IngestEnv) (topics : Topics) (l : Landed) (lane : Lane) : Landed :=
  match lane with
  | .cdc topic table =>
    let rows := (landings (.cdc topic table) topics).mapIdx fun i r =>
      (recordId r, parseEnvelope ((env topic).uuid i) (env topic).now (r.value.getD ""))
    { l with cdc := Function.update l.cdc table (l.cdc table + rows) }
  | .events =>
    let rows := (landings .events topics).mapIdx fun i r =>
      (recordId r, eventRow ((env rawEventsTopic).uuid i) (env rawEventsTopic).now r)
    { l with kafkaEvents := l.kafkaEvents + rows }

/-- The first `n` steps of a run, with tags. -/
def landUpTo (n : Nat) (env : String → IngestEnv) (topics : Topics) (l : Landed) : Landed :=
  (lanes.take n).foldl (landLane env topics) l

theorem map_snd_mapIdx {α β γ : Type} (l : List α) (f : α → β) (g : Nat → α → γ) :
    (l.mapIdx fun i a => (f a, g i a)).map Prod.snd = l.mapIdx g := by
  apply List.ext_getElem?
  intro i
  simp [Function.comp_def]

theorem map_fst_mapIdx {α β γ : Type} (l : List α) (f : α → β) (g : Nat → α → γ) :
    (l.mapIdx fun i a => (f a, g i a)).map Prod.fst = l.map f := by
  apply List.ext_getElem?
  intro i
  simp [Function.comp_def]

/-- A topic is parsed record by record, without those that have no value. -/
theorem parse_readTopic (env : IngestEnv) (records : List KafkaRecord) :
    parseDebeziumEnvelope env.uuid env.now (readTopic records) =
      (records.filter fun r => (nonEmpty r.value).isSome).mapIdx fun i r =>
        parseEnvelope (env.uuid i) env.now (r.value.getD "") := by
  have hvalues : (readTopic records).filterMap nonEmpty =
      (records.filter fun r => (nonEmpty r.value).isSome).map fun r => r.value.getD "" := by
    induction records with
    | nil => rfl
    | cons r records ih =>
      rw [readTopic, List.map_cons, ← readTopic]
      cases hr : nonEmpty r.value with
      | none => rw [List.filterMap_cons_none hr, ih, List.filter_cons_of_neg (by simp [hr])]
      | some v =>
        have hv : r.value = some v := (Option.filter_eq_some_iff.1 hr).1
        rw [List.filterMap_cons_some hr, ih, List.filter_cons_of_pos (by simp [hr]), List.map_cons,
          hv]
        rfl
  unfold parseDebeziumEnvelope
  rw [hvalues]
  apply List.ext_getElem?
  intro i
  simp [Function.comp_def]

/-- **The tags are ghosts**: without them the run is the job's. -/
theorem landUpTo_erase (n : Nat) (env : String → IngestEnv) (topics : Topics) (l : Landed) :
    (landUpTo n env topics l).erase = (bronzeIngestUpTo n env topics l.erase).1 := by
  have hlane : ∀ (l : Landed) (lane : Lane) (count : Nat),
      (landLane env topics l lane).erase = (ingestLane env topics (l.erase, count) lane).1 := by
    intro l lane count
    cases lane with
    | cdc topic table =>
      have hrows := ingestTopic_fst (env topic) (topics topic) (l.erase.cdc table)
      rw [parse_readTopic] at hrows
      change Bronze.mk _ _ = Bronze.mk (Function.update _ _ (ingestTopic _ _ _).1) _
      rw [hrows]
      congr 1
      funext t
      by_cases ht : t = table
      · subst ht
        simp only [landLane, Function.update_self, Multiset.map_add, Multiset.map_coe,
          map_snd_mapIdx]
        rfl
      · simp only [landLane, Function.update_of_ne ht]
        rfl
    | events =>
      have hrows := ingestRawEvents_fst (env rawEventsTopic) (topics rawEventsTopic)
        l.erase.kafkaEvents
      change Bronze.mk _ _ = Bronze.mk _ (ingestRawEvents _ _ _).1
      rw [hrows]
      congr 1
      have hall : landings .events topics = topics rawEventsTopic :=
        List.filter_eq_self.2 fun _ _ => rfl
      simp only [landLane, hall, Multiset.map_add, Multiset.map_coe, map_snd_mapIdx]
      rfl
  unfold landUpTo bronzeIngestUpTo
  generalize lanes.take n = steps
  generalize 0 = count
  induction steps generalizing l count with
  | nil => rfl
  | cons lane steps ih =>
    rw [List.foldl_cons, List.foldl_cons, ih, hlane l lane count]

/-! ## What a run lands -/

/-- The table of a lane, none for `raw.kafka_events`. -/
def laneTable : Lane → Option CdcTable
  | .cdc _ table => some table
  | .events => none

theorem lanes_nodup : lanes.Nodup := by decide

/-- No two lanes write one table. -/
theorem lane_eq_of_table : ∀ lane ∈ lanes, ∀ lane' ∈ lanes, laneTable lane = laneTable lane' →
    lane = lane' := by decide

/-- A lane adds the records of its topic to its table. -/
theorem origins_landLane_self (env : String → IngestEnv) (topics : Topics) (l : Landed)
    (lane : Lane) : (landLane env topics l lane).origins lane =
      l.origins lane + (landings lane topics).map recordId := by
  cases lane with
  | cdc topic table =>
    simp only [landLane, Landed.origins, Function.update_self, Multiset.map_add, Multiset.map_coe,
      map_fst_mapIdx]
  | events =>
    simp only [landLane, Landed.origins, Multiset.map_add, Multiset.map_coe, map_fst_mapIdx]

/-- A lane leaves the other tables alone. -/
theorem origins_landLane_of_ne (env : String → IngestEnv) (topics : Topics) (l : Landed)
    {lane lane' : Lane} (hne : laneTable lane ≠ laneTable lane') :
    (landLane env topics l lane').origins lane = l.origins lane := by
  cases lane with
  | cdc topic table =>
    cases lane' with
    | cdc topic' table' =>
      have htable : table ≠ table' := fun h => hne (congrArg some h)
      simp only [landLane, Landed.origins, Function.update_of_ne htable]
    | events => rfl
  | events =>
    cases lane' with
    | cdc topic' table' => rfl
    | events => exact absurd rfl hne

/-- A run adds to a lane it completes the records its topic holds, and nothing to the others. -/
theorem origins_landUpTo (n : Nat) (env : String → IngestEnv) (topics : Topics) (l : Landed)
    {lane : Lane} (hlane : lane ∈ lanes) :
    (landUpTo n env topics l).origins lane =
      l.origins lane + if lane ∈ lanes.take n then (landings lane topics).map recordId else [] := by
  have hsub : ∀ x ∈ lanes.take n, x ∈ lanes := fun x hx => List.mem_of_mem_take hx
  have hnodup : (lanes.take n).Nodup := lanes_nodup.sublist (List.take_sublist _ _)
  unfold landUpTo
  generalize lanes.take n = steps at hsub hnodup
  induction steps generalizing l with
  | nil => simp
  | cons step steps ih =>
    obtain ⟨hstep, hnodup⟩ := List.nodup_cons.1 hnodup
    rw [List.foldl_cons, ih _ (fun x hx => hsub x (.tail _ hx)) hnodup]
    by_cases heq : lane = step
    · subst heq
      rw [origins_landLane_self, if_neg hstep, if_pos (.head _)]
      exact add_zero _
    · have hne : laneTable lane ≠ laneTable step := fun h =>
        heq (lane_eq_of_table lane hlane step (hsub step (.head _)) h)
      rw [origins_landLane_of_ne env topics l hne]
      simp only [List.mem_cons, heq, false_or]

/-! ## Sequences of appends and runs -/

/-- What happens to the topics and the tables. -/
inductive BronzeEvent where
  /-- A producer appends a message. -/
  | append (m : Message)
  /-- The job runs and ends after the first `completed` topics. -/
  | run (completed : Nat) (env : String → IngestEnv)

/-- The topics, and the rows that have landed with the records they came from. -/
structure BronzeState where
  topics : Topics
  landed : Landed

/-- Before the first event. -/
def BronzeState.empty : BronzeState := ⟨fun _ => [], Landed.empty⟩

/-- One event. -/
def BronzeState.step (s : BronzeState) : BronzeEvent → BronzeState
  | .append m => { s with topics := produce s.topics m }
  | .run completed env => { s with landed := landUpTo completed env s.topics s.landed }

/-- The state after some events. -/
def BronzeState.run (s : BronzeState) (events : List BronzeEvent) : BronzeState :=
  events.foldl BronzeState.step s

/-- The ingests of a lane that find a landable record in its topic. -/
def loads (lane : Lane) : BronzeState → List BronzeEvent → Nat
  | _, [] => 0
  | s, .append m :: events => loads lane (s.step (.append m)) events
  | s, .run completed env :: events =>
    (if lane ∈ lanes.take completed ∧ landings lane s.topics ≠ [] then 1 else 0) +
      loads lane (s.step (.run completed env)) events

/-- Every record has at most one row in the table of its lane. -/
def LandsAtMostOnce (events : List BronzeEvent) : Prop :=
  ∀ lane ∈ lanes, ((BronzeState.empty.run events).landed.origins lane).Nodup

/-- A run right after a run that got as far leaves every table as it was. -/
def RerunsAddNothing (events : List BronzeEvent) : Prop :=
  ∀ before after n n' env env', events = before ++ .run n env :: .run n' env' :: after → n' ≤ n →
    (BronzeState.empty.run (before ++ [.run n env, .run n' env'])).landed.erase =
      (BronzeState.empty.run (before ++ [.run n env])).landed.erase

/-! ## Records are told apart -/

/-- Each topic holds records of its own, with distinct offsets in each partition, below the next
one. -/
structure WellNumbered (topics : Topics) : Prop where
  topic : ∀ t, ∀ r ∈ topics t, r.topic = t
  nodup : ∀ t, ((topics t).map recordId).Nodup
  below : ∀ t, ∀ r ∈ topics t, r.offset < nextOffset (topics t) r.partition

theorem wellNumbered_empty : WellNumbered fun _ => [] := ⟨nofun, fun _ => .nil, nofun⟩

/-- An appended message gets an offset of its own. -/
theorem wellNumbered_produce {topics : Topics} (h : WellNumbered topics) (m : Message) :
    WellNumbered (produce topics m) := by
  have hnext : ∀ partition, nextOffset (topics m.topic ++ [m.record topics]) partition =
      nextOffset (topics m.topic) partition + if m.partition = partition then 1 else 0 := by
    intro partition
    unfold nextOffset
    rw [List.countP_append, List.countP_singleton]
    by_cases hp : m.partition = partition <;> simp [Message.record, hp]
  have hother : ∀ t, t ≠ m.topic → produce topics m t = topics t := fun t ht =>
    Function.update_of_ne ht _ _
  have hself : produce topics m m.topic = topics m.topic ++ [m.record topics] :=
    Function.update_self _ _ _
  refine ⟨fun t => ?_, fun t => ?_, fun t => ?_⟩
  · by_cases ht : t = m.topic
    · subst ht
      rw [hself]
      intro r hr
      rcases List.mem_append.1 hr with hr | hr
      · exact h.topic _ r hr
      · rw [List.mem_singleton.1 hr]
        rfl
    · rw [hother t ht]
      exact h.topic t
  · by_cases ht : t = m.topic
    · subst ht
      rw [hself, List.map_append, List.map_singleton]
      apply (h.nodup _).append (List.nodup_singleton _)
      intro id hid hid'
      rw [List.mem_singleton] at hid'
      obtain ⟨r, hr, rfl⟩ := List.mem_map.1 hid
      obtain ⟨hpart, hoff⟩ := Prod.mk.inj (Prod.mk.inj hid').2
      have hlt := h.below _ r hr
      rw [hoff, hpart] at hlt
      exact absurd hlt (Nat.lt_irrefl _)
    · rw [hother t ht]
      exact h.nodup t
  · by_cases ht : t = m.topic
    · subst ht
      rw [hself]
      intro r hr
      rw [hnext]
      rcases List.mem_append.1 hr with hr | hr
      · exact (h.below _ r hr).trans_le (Nat.le_add_right _ _)
      · rw [List.mem_singleton.1 hr]
        simp [Message.record]
    · rw [hother t ht]
      exact h.below t

/-! ## Runs -/

/-- What can land before a message is appended can land after it. -/
theorem landings_produce (lane : Lane) (topics : Topics) (m : Message) :
    ∀ r ∈ landings lane topics, r ∈ landings lane (produce topics m) := by
  intro r hr
  obtain ⟨hr, hland⟩ := List.mem_filter.1 hr
  refine List.mem_filter.2 ⟨?_, hland⟩
  by_cases ht : lane.topic = m.topic
  · rw [produce, ht, Function.update_self]
    rw [ht] at hr
    exact List.mem_append_left _ hr
  · rw [produce, Function.update_of_ne ht]
    exact hr

/-- The topics number their records, and every row came from a record that is still there. -/
structure BronzeInv (s : BronzeState) : Prop where
  topics : WellNumbered s.topics
  origins : ∀ lane ∈ lanes, ∀ id ∈ s.landed.origins lane,
    id ∈ (landings lane s.topics).map recordId

theorem bronzeInv_empty : BronzeInv BronzeState.empty where
  topics := wellNumbered_empty
  origins lane _ id hid := by
    cases lane with
    | cdc topic table => exact absurd hid (Multiset.notMem_zero id)
    | events => exact absurd hid (Multiset.notMem_zero id)

/-- Every event preserves the invariant. -/
theorem BronzeInv.step {s : BronzeState} (h : BronzeInv s) (e : BronzeEvent) :
    BronzeInv (s.step e) := by
  cases e with
  | append m =>
    refine ⟨wellNumbered_produce h.topics m, fun lane hlane id hid => ?_⟩
    obtain ⟨r, hr, rfl⟩ := List.mem_map.1 (h.origins lane hlane id hid)
    exact List.mem_map_of_mem (landings_produce lane s.topics m r hr)
  | run completed env =>
    refine ⟨h.topics, fun lane hlane id hid => ?_⟩
    change id ∈ (landUpTo completed env s.topics s.landed).origins lane at hid
    rw [origins_landUpTo completed env s.topics s.landed hlane] at hid
    rcases Multiset.mem_add.1 hid with hid | hid
    · exact h.origins lane hlane id hid
    · split at hid
      · exact Multiset.mem_coe.1 hid
      · exact absurd hid (Multiset.notMem_zero id)

theorem origins_nodup_iff {lane : Lane} (hlane : lane ∈ lanes) {s : BronzeState} (h : BronzeInv s)
    (events : List BronzeEvent) :
    ((s.run events).landed.origins lane).Nodup ↔ (s.landed.origins lane).Nodup ∧
      loads lane s events + (if s.landed.origins lane = 0 then 0 else 1) ≤ 1 := by
  induction events generalizing s with
  | nil =>
    change (s.landed.origins lane).Nodup ↔ _
    rw [loads, iff_self_and]
    intro _
    split <;> decide
  | cons e events ih =>
    rw [BronzeState.run, List.foldl_cons, ← BronzeState.run, ih (h.step e)]
    cases e with
    | append m => rfl
    | run completed env =>
      have horigins : (s.step (.run completed env)).landed.origins lane = _ :=
        origins_landUpTo completed env s.topics s.landed hlane
      rw [horigins, loads]
      by_cases hload : lane ∈ lanes.take completed ∧ landings lane s.topics ≠ []
      · rw [if_pos hload, if_pos hload.1]
        have hne : s.landed.origins lane + ((landings lane s.topics).map recordId : List RecordId) ≠
            0 := by
          intro h0
          have hmap := (Multiset.coe_eq_zero _).1 (add_eq_zero.1 h0).2
          exact hload.2 (List.map_eq_nil_iff.1 hmap)
        rw [if_neg hne]
        by_cases hzero : s.landed.origins lane = 0
        · -- the first load: the records of a topic are told apart
          have hnodup : ((landings lane s.topics).map recordId).Nodup :=
            (h.topics.nodup lane.topic).sublist (List.filter_sublist.map recordId)
          rw [hzero, zero_add, Multiset.coe_nodup]
          simp only [hnodup, Multiset.nodup_zero, true_and, if_true]
          omega
        · -- a later load: the rows that are there are landed again
          obtain ⟨id, hid⟩ := Multiset.exists_mem_of_ne_zero hzero
          have hdouble : ¬ (s.landed.origins lane +
              ((landings lane s.topics).map recordId : List RecordId)).Nodup := fun hnodup =>
            Multiset.disjoint_left.1 (Multiset.nodup_add.1 hnodup).2.2 hid
              (Multiset.mem_coe.2 (h.origins lane hlane id hid))
          rw [if_neg hzero]
          exact ⟨fun hboth => absurd hboth.1 hdouble, fun hboth => absurd hboth.2 (by omega)⟩
      · have hnothing : (if lane ∈ lanes.take completed then (landings lane s.topics).map recordId
            else []) = [] := by
          split
          · next hin => rw [not_not.1 fun hne => hload ⟨hin, hne⟩, List.map_nil]
          · rfl
        rw [hnothing, if_neg hload, zero_add]
        simp only [Multiset.coe_nil, add_zero]

/-- The loads of a run add up along it. -/
theorem loads_append (lane : Lane) (s : BronzeState) (events events' : List BronzeEvent) :
    loads lane s (events ++ events') = loads lane s events + loads lane (s.run events) events' := by
  induction events generalizing s with
  | nil => exact (Nat.zero_add _).symm
  | cons e events ih =>
    cases e with
    | append m => exact ih _
    | run completed env =>
      change _ + loads lane _ (events ++ events') = _ + _ + _
      rw [ih, Nat.add_assoc]
      rfl

/-- A run of lanes that hold nothing to land changes no table. -/
theorem landUpTo_of_empty {n : Nat} {env : String → IngestEnv} {topics : Topics}
    (h : ∀ lane ∈ lanes.take n, landings lane topics = []) (l : Landed) :
    landUpTo n env topics l = l := by
  unfold landUpTo
  generalize lanes.take n = steps at h
  induction steps with
  | nil => rfl
  | cons step steps ih =>
    have hstep : landLane env topics l step = l := by
      have hnone := h step (.head _)
      cases step with
      | cdc topic table => simp [landLane, hnone]
      | events => simp [landLane, hnone]
    rw [List.foldl_cons, hstep]
    exact ih fun lane hlane => h lane (.tail _ hlane)

/-- **Bronze lands each record at most once** exactly when no topic is ingested twice with something
to land. For every sequence of appends and of runs that end after any number of topics, each record
has at most one row, and a rerun adds nothing, if and only if each lane is ingested at most once
while its topic holds a landable record. -/
theorem bronze_at_most_once_iff (events : List BronzeEvent) :
    (LandsAtMostOnce events ∧ RerunsAddNothing events) ↔
      ∀ lane ∈ lanes, loads lane BronzeState.empty events ≤ 1 := by
  have honce : LandsAtMostOnce events ↔
      ∀ lane ∈ lanes, loads lane BronzeState.empty events ≤ 1 := by
    apply forall₂_congr
    intro lane hlane
    have hempty : BronzeState.empty.landed.origins lane = 0 := by cases lane <;> rfl
    rw [origins_nodup_iff hlane bronzeInv_empty, hempty]
    simp
  rw [honce, and_iff_left_iff_imp]
  rintro hloads before after n n' env env' rfl hle
  -- a lane the rerun loads was loaded by the run before it
  have hnothing : ∀ lane ∈ lanes.take n', landings lane (BronzeState.empty.run before).topics = [] := by
    intro lane hlane
    by_contra hne
    have hbound := hloads lane (List.mem_of_mem_take hlane)
    have hin : lane ∈ lanes.take n := List.take_subset_take_left _ hle hlane
    rw [loads_append, loads, loads, if_pos ⟨hin, hne⟩, if_pos ⟨hlane, hne⟩] at hbound
    omega
  have hrun : BronzeState.empty.run (before ++ [BronzeEvent.run n env, .run n' env']) =
      ((BronzeState.empty.run before).step (.run n env)).step (.run n' env') := by
    rw [BronzeState.run, List.foldl_append]
    rfl
  have hrun' : BronzeState.empty.run (before ++ [BronzeEvent.run n env]) =
      (BronzeState.empty.run before).step (.run n env) := by
    rw [BronzeState.run, List.foldl_append]
    rfl
  rw [hrun, hrun']
  exact congrArg Landed.erase (landUpTo_of_empty hnothing _)

/-- One record of `raw.events`, and two runs of the job. -/
def eventThenTwoRuns : List BronzeEvent :=
  [.append ⟨rawEventsTopic, 0, 0, none, some "\x7b\x7d"⟩, .run 4 fun _ => ⟨fun i => i.repr, 0⟩,
    .run 4 fun _ => ⟨fun i => i.repr, 1⟩]

/-- The second run lands the record a second time. -/
theorem bronze_lands_event_twice :
    ¬ (LandsAtMostOnce eventThenTwoRuns ∧ RerunsAddNothing eventThenTwoRuns) ∧
      (BronzeState.empty.run eventThenTwoRuns).landed.origins .events =
        {(rawEventsTopic, 0, 0), (rawEventsTopic, 0, 0)} := by
  have htwice : (BronzeState.empty.run eventThenTwoRuns).landed.origins .events =
      {(rawEventsTopic, 0, 0), (rawEventsTopic, 0, 0)} := by decide
  refine ⟨fun h => ?_, htwice⟩
  have honce := h.1 .events (by decide)
  rw [htwice] at honce
  exact absurd honce (by decide)

end Lakehouse.Verify
