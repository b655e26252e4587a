import Lakehouse.Ingestion.Loader

/-!
# What the loader reports

`produce_events` returns the number of rows it was given. The records it adds to the topic are those
the broker acknowledges, so the number is that of the acknowledged records exactly when no record
fails after it was sent (`loader_reports_acknowledged_iff`); `main` prints it with exit code 0
either way (`loader_reports_lost_event`).
-/

namespace Lakehouse.Verify

open Ingestion

/-! ## Records -/

/-- Every record is sent when no call raises. -/
theorem sendAll_of_ok {kafka : Kafka} {i : Nat} {records : List Record}
    (h : ∀ j < records.length, kafka.send (i + j) = .ok ()) :
    sendAll kafka i records = (records, .ok ()) := by
  induction records generalizing i with
  | nil => rfl
  | cons r records ih =>
    have hfirst : kafka.send i = .ok () := h 0 (Nat.succ_pos _)
    have hrest : sendAll kafka (i + 1) records = (records, .ok ()) := by
      apply ih
      intro j hj
      rw [Nat.add_assoc, Nat.add_comm 1 j]
      exact h (j + 1) (Nat.succ_lt_succ hj)
    simp only [sendAll, hfirst, hrest]

/-- The acknowledged records are some of those that were sent. -/
theorem acknowledged_sublist (kafka : Kafka) (i : Nat) (records : List Record) :
    (acknowledged kafka i records).Sublist records := by
  induction records generalizing i with
  | nil => exact .slnil
  | cons r records ih =>
    unfold acknowledged
    split
    · exact (ih (i + 1)).cons_cons r
    · exact (ih (i + 1)).cons r

/-- Every record is acknowledged when as many records are. -/
theorem length_acknowledged_iff {kafka : Kafka} {i : Nat} {records : List Record} :
    (acknowledged kafka i records).length = records.length ↔
      ∀ j < records.length, kafka.outcome (i + j) = .acknowledged := by
  induction records generalizing i with
  | nil => simp [acknowledged]
  | cons r records ih =>
    have hle := (acknowledged_sublist kafka (i + 1) records).length_le
    have hshift : (∀ j < records.length, kafka.outcome (i + 1 + j) = .acknowledged) ↔
        ∀ j < records.length, kafka.outcome (i + (j + 1)) = .acknowledged := by
      simp only [Nat.add_assoc, Nat.add_comm 1]
    rw [List.length_cons, Nat.forall_lt_succ_left, Nat.add_zero, ← hshift, ← ih, acknowledged]
    cases hout : kafka.outcome i with
    | acknowledged => simp
    | failed =>
      simp only [reduceCtorEq, false_and, iff_false]
      omega

/-- All records are acknowledged exactly when none fails. -/
theorem acknowledged_eq_iff {kafka : Kafka} {i : Nat} {records : List Record} :
    acknowledged kafka i records = records ↔
      ∀ j < records.length, kafka.outcome (i + j) = .acknowledged := by
  rw [← length_acknowledged_iff]
  exact ⟨congrArg List.length, (acknowledged_sublist kafka i records).eq_of_length⟩

/-! ## Runs in which no call raises -/

/-- No call to the producer raises while `n` records are sent. -/
structure NoneRaises (kafka : Kafka) (n : Nat) : Prop where
  connect : kafka.connect = .ok ()
  send : ∀ i < n, kafka.send i = .ok ()
  flush : kafka.flush = .ok ()
  close : kafka.close = .ok ()

section Produce

variable {ρ : Type} {jsonDumps : RateEvent ρ → String} {kafka : Kafka}
  {events : List (RateEvent ρ)}

/-- What `produce_events` comes to when no call raises. -/
theorem produceEvents_of_noneRaises (h : NoneRaises kafka events.length) :
    produceEvents jsonDumps kafka events =
      { log := acknowledged kafka 0 (events.map (record jsonDumps))
        result := .ok events.length } := by
  have hsent : sendAll kafka 0 (events.map (record jsonDumps)) =
      (events.map (record jsonDumps), .ok ()) := by
    apply sendAll_of_ok
    intro j hj
    rw [Nat.zero_add]
    exact h.send j (by rwa [List.length_map] at hj)
  simp only [produceEvents, h.connect, hsent, h.close, h.flush]
  rfl

/-- `produce_events` returns the number of acknowledged records, and `main` ends with exit code 0
for these events only when all of them are in the topic. -/
structure ReportsAcknowledged (jsonDumps : RateEvent ρ → String) (kafka : Kafka)
    (events : List (RateEvent ρ)) : Prop where
  count : (produceEvents jsonDumps kafka events).result =
    .ok (produceEvents jsonDumps kafka events).log.length
  exitCode : ∀ (fetchRates : String → Except String (Payload ρ)) (round6 : ρ → ρ) (now : String)
    (args : Args) (payload : Payload ρ), fetchRates args.base = .ok payload →
    ratesToEvents round6 now payload args.currencies = events → args.dryRun = false →
    (main jsonDumps fetchRates round6 now kafka args).exitCode = 0 →
      (main jsonDumps fetchRates round6 now kafka args).log = events.map (record jsonDumps)

/-- What the loader comes to when no call raises. -/
theorem main_of_noneRaises (h : NoneRaises kafka events.length) (hne : events ≠ [])
    {fetchRates : String → Except String (Payload ρ)} {round6 : ρ → ρ} {now : String} {args : Args}
    {payload : Payload ρ} (hfetch : fetchRates args.base = .ok payload)
    (hevents : ratesToEvents round6 now payload args.currencies = events)
    (hdry : args.dryRun = false) :
    main jsonDumps fetchRates round6 now kafka args =
      { exitCode := 0
        reported := some events.length
        log := acknowledged kafka 0 (events.map (record jsonDumps)) } := by
  have hnonempty : events.isEmpty = false := by simpa using hne
  simp only [main, hfetch, hevents, hnonempty, hdry, produceEvents_of_noneRaises h,
    Bool.false_eq_true, if_false]

/-- **The loader counts acknowledgements** exactly when no record fails. For every events frame that
is not empty and every outcome of its records, as long as no call raises: `produce_events` returns
the number of records that were acknowledged, and exit code 0 means that all events are in the
topic, if and only if every record is acknowledged. -/
theorem loader_reports_acknowledged_iff (hne : events ≠ [])
    (h : NoneRaises kafka events.length) :
    ReportsAcknowledged jsonDumps kafka events ↔
      ∀ i < events.length, kafka.outcome i = .acknowledged := by
  have hall : (∀ i < events.length, kafka.outcome i = .acknowledged) ↔
      ∀ j < (events.map (record jsonDumps)).length, kafka.outcome (0 + j) = .acknowledged := by
    simp only [List.length_map, Nat.zero_add]
  rw [hall]
  constructor
  · intro hreports
    have hcount := hreports.count
    rw [produceEvents_of_noneRaises h] at hcount
    rw [← length_acknowledged_iff, List.length_map]
    exact (Except.ok.inj hcount).symm
  · intro hacked
    have hlog := acknowledged_eq_iff.2 hacked
    constructor
    · rw [produceEvents_of_noneRaises h, hlog, List.length_map]
    · intro fetchRates round6 now args payload hfetch hevents hdry _
      rw [main_of_noneRaises h hne hfetch hevents hdry, hlog]

end Produce

/-! ## Two events -/

section Given

/-- The two records are sent without an exception; the second one has the given outcome. -/
def twoSends (second : Outcome) : Kafka where
  connect := .ok ()
  send _ := .ok ()
  flush := .ok ()
  close := .ok ()
  outcome i := if i = 0 then .acknowledged else second

/-- A response with two rates. -/
def twoRates : Payload Nat := ⟨"EUR", "2026-07-07", [("USD", 1173400), ("GBP", 857100)]⟩

/-- Its events. -/
def twoEvents : List (RateEvent Nat) :=
  ratesToEvents id "2026-07-07T00:00:00+00:00" twoRates ["USD", "GBP"]

theorem length_twoEvents : twoEvents.length = 2 := by
  simp [twoEvents, ratesToEvents, twoRates]

theorem twoSends_noneRaises (second : Outcome) (n : Nat) : NoneRaises (twoSends second) n :=
  ⟨rfl, fun _ _ => rfl, rfl, rfl⟩

theorem loader_reports_acknowledged_iff_two :
    ReportsAcknowledged (fun _ => "\x7b\x7d") (twoSends .acknowledged) twoEvents := by
  have hne : twoEvents ≠ [] := List.ne_nil_of_length_eq_add_one length_twoEvents
  apply (loader_reports_acknowledged_iff hne (twoSends_noneRaises _ _)).2
  intro i _
  exact ite_self _

/-- A run of the script on the two rates. -/
def runTwo (second : Outcome) : LoaderRun :=
  main (fun _ => "\x7b\x7d") (fun _ => .ok twoRates) id "2026-07-07T00:00:00+00:00"
    (twoSends second) ⟨"EUR", ["USD", "GBP"], false⟩

/-- The second record fails after it was sent: two events are reported with exit code 0, and one of
them is in the topic. -/
theorem loader_reports_lost_event :
    (produceEvents (fun _ => "\x7b\x7d") (twoSends .failed) twoEvents).result = .ok 2 ∧
      (produceEvents (fun _ => "\x7b\x7d") (twoSends .failed) twoEvents).log.length = 1 ∧
      (runTwo .failed).exitCode = 0 ∧ (runTwo .failed).reported = some 2 ∧
      (runTwo .failed).log.length = 1 := by
  have hquiet := twoSends_noneRaises .failed twoEvents.length
  have hne : twoEvents ≠ [] := List.ne_nil_of_length_eq_add_one length_twoEvents
  have hlog : (acknowledged (twoSends .failed) 0
      (twoEvents.map (record fun _ => "\x7b\x7d"))).length = 1 := by
    obtain ⟨e, e', hevents⟩ := List.length_eq_two.1 length_twoEvents
    rw [hevents]
    rfl
  have hmain : runTwo .failed = _ := main_of_noneRaises hquiet hne rfl rfl rfl
  rw [hmain, produceEvents_of_noneRaises hquiet, length_twoEvents]
  exact ⟨rfl, hlog, rfl, rfl, hlog⟩

end Given

end Lakehouse.Verify
