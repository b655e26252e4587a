import Lakehouse.Streaming.OrderTopic
import Lakehouse.Verify.HotPath

/-!
# Snapshots and compaction on the order topic

The job adds up what it reads and does not look at order ids. A snapshot read of a row that is
counted already is counted again, unless its window has fired before or never fires
(`restarts_invisible_iff`). On a compacted topic an update may retract an image that was never
inserted, and an image that was inserted may never be retracted: a window that fires has the right
count exactly when there are as many of the one as of the other (`rebuild_exact_iff`).
-/

namespace Lakehouse.Verify

open Lib Source Streaming

theorem watermarkAfter_snoc (events : List StreamEvent) (e : StreamEvent) :
    watermarkAfter (events ++ [e]) = match e with
      | .change _ => watermarkAfter events
      | .watermark m => raise (watermarkAfter events) m := by
  unfold watermarkAfter
  rw [List.foldl_append]
  rfl

theorem runJob_watermark (events : List StreamEvent) :
    (runJob events).1.watermark = watermarkAfter events := by
  induction events using List.reverseRecOn with
  | nil => rfl
  | append_singleton events e ih =>
    rw [watermarkAfter_snoc, ← ih, runJob_append]
    cases e with
    | change c => simpa [StreamEvent.windowEvents] using run_decode_watermark (runJob events).1 c
    | watermark m => rfl

/-! ## Snapshots of restarts -/

theorem closed_watermarkAfter {events : List StreamEvent} {w : Int} (later : List StreamEvent)
    (h : closed minute (watermarkAfter events) w = true) :
    closed minute (watermarkAfter (events ++ later)) w = true := by
  rw [← runJob_watermark, runJob_append]
  rw [← runJob_watermark] at h
  exact closed_run minute _ h

theorem published_append (events events' : List ConnectorEvent) :
    published (events ++ events') = published events ++ published events' := List.map_append

theorem captured_append (events events' : List ConnectorEvent) :
    captured (events ++ events') = captured events ++ captured events' := List.filterMap_append

theorem published_stream (events : List ConnectorEvent) (x : StreamEvent) :
    published (events ++ [ConnectorEvent.stream x]) = published events ++ [x] :=
  published_append _ _

theorem published_snapshotRead (events : List ConnectorEvent) (r : OrderRow) :
    published (events ++ [ConnectorEvent.snapshotRead r]) =
      published events ++ [StreamEvent.change (.read r)] := published_append _ _

theorem captured_stream (events : List ConnectorEvent) (x : StreamEvent) :
    captured (events ++ [ConnectorEvent.stream x]) = captured events ++ [x] := captured_append _ _

theorem captured_snapshotRead (events : List ConnectorEvent) (r : OrderRow) :
    captured (events ++ [ConnectorEvent.snapshotRead r]) = captured events := by
  rw [captured_append]
  exact List.append_nil _

theorem watermark_published (events : List ConnectorEvent) :
    watermarkAfter (published events) = watermarkAfter (captured events) := by
  induction events using List.reverseRecOn with
  | nil => rfl
  | append_singleton events e ih =>
    cases e with
    | stream x =>
      rw [published_stream, captured_stream, watermarkAfter_snoc, watermarkAfter_snoc, ih]
    | snapshotRead r =>
      rw [published_snapshotRead, captured_snapshotRead, watermarkAfter_snoc]
      exact ih

/-- Snapshot reads that are dropped, or that stay in windows that are not compared, make no
difference. -/
theorem agree_published {windows : Int → Bool} {events : List ConnectorEvent}
    (hreads : ∀ (before : List ConnectorEvent) (r : OrderRow) (after : List ConnectorEvent),
      events = before ++ .snapshotRead r :: after →
      closed minute (watermarkAfter (captured before)) (windowOf minute (rowtime r)) = true ∨
        windows (windowOf minute (rowtime r)) = false)
    (hclosed : ∀ w, closed minute (watermarkAfter (captured events)) w = true → windows w = true) :
    (runJob (published events)).1.AgreeOn windows (runJob (captured events)).1 ∧
      (runJob (published events)).2 = (runJob (captured events)).2 := by
  induction events using List.reverseRecOn with
  | nil => exact ⟨⟨rfl, rfl⟩, rfl⟩
  | append_singleton events e ih =>
    obtain ⟨hagree, hout⟩ := ih
      (fun before r after h => hreads before r (after ++ [e]) (by simp [h]))
      (fun w hw => hclosed w (by rw [captured_append]; exact closed_watermarkAfter _ hw))
    cases e with
    | stream x =>
      have hnow : ∀ w, closed minute (runJob (published events ++ [x])).1.watermark w = true →
          windows w = true := by
        intro w hw
        rw [runJob_watermark, watermarkAfter_snoc, watermark_published] at hw
        apply hclosed w
        rwa [captured_stream, watermarkAfter_snoc]
      rw [runJob_append] at hnow
      rw [published_stream, captured_stream, runJob_append, runJob_append]
      obtain ⟨hagree', hout'⟩ := hagree.run _ hnow
      exact ⟨hagree', congrArg₂ (· ++ ·) hout hout'⟩
    | snapshotRead r =>
      have hread := hreads events r [] rfl
      rw [← watermark_published, ← runJob_watermark] at hread
      rw [published_snapshotRead, captured_snapshotRead, runJob_append]
      have hsilent := output_decode (runJob (published events)).1 (.read r)
      refine ⟨hagree.row (contribution r) hread, ?_⟩
      change (runJob (published events)).2 ++ ((runJob (published events)).1.run minute
        (decode (.read r))).2 = _
      rw [hsilent, List.append_nil, hout]

theorem exists_fires {before after : List ConnectorEvent} {w : Int}
    (hopen : closed minute (watermarkAfter (captured before)) w = false)
    (hclosed : closed minute (watermarkAfter (captured (before ++ after))) w = true) :
    ∃ (between : List ConnectorEvent) (m : Int) (rest : List ConnectorEvent),
      after = between ++ .stream (.watermark m) :: rest ∧
      Fires (watermarkAfter (captured (before ++ between))) m w := by
  induction after generalizing before with
  | nil =>
    rw [List.append_nil, hopen] at hclosed
    cases hclosed
  | cons e after ih =>
    have hlater (hnext : closed minute (watermarkAfter (captured (before ++ [e]))) w = false) :
        ∃ (between : List ConnectorEvent) (m : Int) (rest : List ConnectorEvent),
          e :: after = between ++ .stream (.watermark m) :: rest ∧
          Fires (watermarkAfter (captured (before ++ between))) m w := by
      rw [List.append_cons] at hclosed
      obtain ⟨between, m, rest, rfl, hfires⟩ := ih hnext hclosed
      rw [← List.append_cons] at hfires
      exact ⟨e :: between, m, rest, rfl, hfires⟩
    cases e with
    | snapshotRead r =>
      apply hlater
      rwa [captured_snapshotRead]
    | stream x =>
      rw [captured_stream, watermarkAfter_snoc] at hlater
      cases x with
      | change c => exact hlater hopen
      | watermark m =>
        cases hraise : closed minute (raise (watermarkAfter (captured before)) m) w with
        | false => exact hlater hraise
        | true =>
          refine ⟨[], m, after, rfl, ?_⟩
          rw [List.append_nil]
          exact ⟨hopen, hraise⟩

/-- The rows of the snapshots. -/
def snapshotReads (events : List ConnectorEvent) : List OrderRow :=
  events.filterMap fun
    | .stream _ => none
    | .snapshotRead r => some r

/-- Every snapshot read adds one to its window. -/
theorem count_published (w : Int) (events : List ConnectorEvent) :
    ((changes (published events)).map (netIn w)).sum.1 =
      ((changes (captured events)).map (netIn w)).sum.1 +
        (snapshotReads events).countP (inWindow w) := by
  induction events with
  | nil => rfl
  | cons e events ih =>
    cases e with
    | stream x =>
      cases x with
      | change c =>
        simp only [published, captured, snapshotReads, changes, List.map_cons,
          List.filterMap_cons, List.sum_cons, Prod.fst_add] at ih ⊢
        rw [ih, add_assoc]
      | watermark m => exact ih
    | snapshotRead r =>
      have hread : (netIn w (.read r)).1 = if inWindow w r then 1 else 0 := by
        cases hr : inWindow w r <;>
          simp [netIn, net, imageValue, Change.after, Change.before, contribution, hr]
      simp only [published, captured, snapshotReads, changes, List.map_cons,
        List.filterMap_cons, List.sum_cons, Prod.fst_add, List.countP_cons] at ih ⊢
      rw [ih, hread]
      push_cast
      ring

/-- The counts on the sink for a window that fires after some events. -/
theorem sink_counts {events later : List StreamEvent} {w m : Int}
    (hfires : Fires (watermarkAfter events) m w) :
    (((sinkRecords (events ++ .watermark m :: later)).filter
        fun r => r.windowStart = windowStart minute w).map RevenueRecord.orderCount) =
      if ((changes events).map (netIn w)).sum.1 = 0 then []
      else [((changes events).map (netIn w)).sum.1] := by
  obtain ⟨hopen, hclosed⟩ := hfires
  rw [← runJob_watermark] at hopen hclosed
  rw [sinkRecords, List.filter_map, List.map_map]
  change ((orderRevenue _).filter fun r => r.windowStart = windowStart minute w).map
    RevenueRow.orderCount = _
  rw [rows_of_window hopen hclosed]
  unfold emit
  split <;> rfl

theorem count_inj {x y : Int} (h : (if x = 0 then [] else [x]) = if y = 0 then [] else [y]) :
    x = y := by
  by_cases hx : x = 0 <;> by_cases hy : y = 0 <;> simp_all

/-- **Snapshots of restarts are invisible** exactly when none of their rows is in a window that
fires after the row was read. For every interleaving of changes, watermarks and snapshot reads (of
whatever rows, so of the live orders at every restart), the records of the job are those of the run
without the snapshot reads if and only if the window of each snapshot read has closed when the read
is processed, or is still open at the end of the run. -/
theorem restarts_invisible_iff (events : List ConnectorEvent) :
    sinkRecords (published events) = sinkRecords (captured events) ↔
      ∀ (before : List ConnectorEvent) (r : OrderRow) (after : List ConnectorEvent),
        events = before ++ .snapshotRead r :: after →
        closed minute (watermarkAfter (captured before)) (windowOf minute (rowtime r)) = true ∨
          closed minute (watermarkAfter (captured events)) (windowOf minute (rowtime r)) =
            false := by
  constructor
  · rintro hsame before r after rfl
    apply or_iff_not_imp_left.2
    intro hopen
    by_contra hclosed
    rw [Bool.not_eq_true] at hopen
    rw [Bool.not_eq_false] at hclosed
    rw [← captured_snapshotRead before r] at hopen
    rw [List.append_cons] at hclosed hsame
    obtain ⟨between, m, rest, rfl, hfires⟩ := exists_fires hopen hclosed
    rw [← List.append_assoc] at hsame
    generalize hhead : before ++ [.snapshotRead r] ++ between = head at hsame hfires
    have hcounts := congrArg (fun l => (l.filter fun r' : RevenueRecord => r'.windowStart =
      windowStart minute (windowOf minute (rowtime r))).map RevenueRecord.orderCount) hsame
    rw [published_append, captured_append] at hcounts
    change (((sinkRecords (published head ++ .watermark m :: published rest)).filter _).map _) =
      (((sinkRecords (captured head ++ .watermark m :: captured rest)).filter _).map _) at hcounts
    rw [sink_counts (by rwa [watermark_published]), sink_counts hfires] at hcounts
    have hmore := count_published (windowOf minute (rowtime r)) head
    have hpos : 0 < (snapshotReads head).countP (inWindow (windowOf minute (rowtime r))) := by
      refine List.countP_pos_iff.2 ⟨r, ?_, decide_eq_true rfl⟩
      exact List.mem_filterMap.2 ⟨.snapshotRead r, by simp [← hhead], rfl⟩
    have hsum := count_inj hcounts
    omega
  · intro hreads
    have hout := (@agree_published (fun w =>
      closed minute (watermarkAfter (captured events)) w) events hreads fun _ hw => hw).2
    rw [sinkRecords, sinkRecords, orderRevenue, orderRevenue, hout]

/-- An order is created, the connector restarts, and the window of the order fires. -/
def restarted : List ConnectorEvent :=
  [.stream (.change (.create (orderAt 1 "pending" 0))), .snapshotRead (orderAt 1 "pending" 0),
    .stream (.change (.create (orderAt 2 "pending" 70))), .stream (.watermark 65000)]

theorem restart_counts_twice :
    IsHistory (changes (captured restarted)) ∧
      liveOrders (changes (captured (restarted.take 1))) = {orderAt 1 "pending" 0} ∧
      (sinkRecords (captured restarted)).map RevenueRecord.orderCount = [1] ∧
      (sinkRecords (published restarted)).map RevenueRecord.orderCount = [2] := by
  refine ⟨by decide +kernel, by decide +kernel, by decide +kernel, by decide +kernel⟩

/-! ## Compacted topics -/

/-- The orders whose latest record leaves an image in the window. -/
def ordersIn (w : Int) (rs : List TopicRecord) : Multiset OrderRow :=
  (liveImages TopicRecord.orderId TopicRecord.after rs).filter fun r => inWindow w r

/-- Every window that fires has a record with the number of its orders, or none when it has none. -/
def CountsExactly (events : List TopicEvent) : Prop :=
  ∀ (before : List TopicEvent) (m : Int) (after : List TopicEvent) (w : Int),
    events = before ++ .watermark m :: after → Fires (watermarkAfter (processed before)) m w →
      (((sinkRecords (processed events)).filter
          fun r => r.windowStart = windowStart minute w).map RevenueRecord.orderCount) =
        if ((ordersIn w (records before)).card : Int) = 0 then []
        else [((ordersIn w (records before)).card : Int)]

/-- Every record with the image that its order had after the records before it. -/
def replacements (rs : List TopicRecord) : List (Option OrderRow × TopicRecord) :=
  withPrevious TopicRecord.orderId TopicRecord.after [] rs

/-- As many records retract an image in the window as replace one. -/
def RetractsWhatWasInserted (w : Int) (rs : List TopicRecord) : Prop :=
  ((replacements rs).countP fun x => x.2.before.any (inWindow w)) =
    (replacements rs).countP fun x => x.1.any (inWindow w)

theorem processed_append (events events' : List TopicEvent) :
    processed (events ++ events') = processed events ++ processed events' := List.filterMap_append

theorem sum_processed (w : Int) (events : List TopicEvent) :
    ((changes (processed events)).map (netIn w)).sum =
      ((records events).map fun r =>
        imageValue (fun r => if inWindow w r then contribution r else 0) r.after -
          imageValue (fun r => if inWindow w r then contribution r else 0) r.before).sum := by
  induction events with
  | nil => rfl
  | cons e events ih =>
    cases e with
    | record r =>
      cases r with
      | change c => exact congrArg (netIn w c + ·) ih
      | tombstone id =>
        apply Eq.trans ih
        exact (zero_add _).symm.trans (congrArg (· + _) (sub_self 0).symm)
    | watermark m => exact ih

theorem count_replaced (w : Int) (rs : List (Option OrderRow × TopicRecord)) :
    (rs.map fun x => imageValue (fun r => if inWindow w r then contribution r else 0) x.1 -
        imageValue (fun r => if inWindow w r then contribution r else 0) x.2.before).sum.1 =
      (rs.countP fun x => x.1.any (inWindow w)) -
        (rs.countP fun x => x.2.before.any (inWindow w) : Int) := by
  have hvalue : ∀ image : Option OrderRow,
      (imageValue (fun r => if inWindow w r then contribution r else 0) image).1 =
        if image.any (inWindow w) then 1 else 0 := by
    intro image
    cases image with
    | none => rfl
    | some r => cases hr : inWindow w r <;> simp [imageValue, contribution, hr]
  induction rs with
  | nil => rfl
  | cons x rs ih =>
    rw [List.map_cons, List.sum_cons, Prod.fst_add, ih, List.countP_cons, List.countP_cons,
      Prod.fst_sub, hvalue, hvalue]
    push_cast
    ring

/-- The count of a window is that of its orders, with what was inserted and is not retracted and
without what is retracted and was not inserted. -/
theorem count_processed (w : Int) (events : List TopicEvent) :
    ((changes (processed events)).map (netIn w)).sum.1 = (ordersIn w (records events)).card +
      (((replacements (records events)).countP fun x => x.1.any (inWindow w)) -
        ((replacements (records events)).countP fun x => x.2.before.any (inWindow w)) : Int) := by
  have hsum := sum_changes TopicRecord.orderId TopicRecord.after
    (fun r => if inWindow w r then contribution r else 0) TopicRecord.before (records events)
  rw [sum_contribution_inWindow] at hsum
  rw [sum_processed]
  apply (congrArg Prod.fst hsum).trans
  rw [Prod.fst_add]
  exact congrArg (_ + ·) (count_replaced w _)

/-- **A compacted topic rebuilds the counts** exactly when what is retracted was inserted. For every
sequence of records (so for whatever compaction leaves of the history of the orders) and every
progress of the watermark, each window that fires has the number of the orders whose latest record
left an image in it, if and only if at each such point as many records have retracted an image in
the window as have replaced one that their order had there. -/
theorem rebuild_exact_iff (events : List TopicEvent) :
    CountsExactly events ↔
      ∀ (before : List TopicEvent) (m : Int) (after : List TopicEvent) (w : Int),
        events = before ++ .watermark m :: after → Fires (watermarkAfter (processed before)) m w →
          RetractsWhatWasInserted w (records before) := by
  apply forall₄_congr
  intro before m after w
  apply forall₂_congr
  intro hevents hfires
  have hcounts := @sink_counts (processed before) (processed after) w m hfires
  have hsplit : processed events = processed before ++ .watermark m :: processed after := by
    rw [hevents, processed_append]
    rfl
  rw [hsplit, hcounts, RetractsWhatWasInserted]
  have hcount := count_processed w before
  constructor
  · intro heq
    have hsame := count_inj heq
    omega
  · intro heq
    have hsame : ((changes (processed before)).map (netIn w)).sum.1 =
        (ordersIn w (records before)).card := by omega
    rw [hsame]

/-- Compaction removed the insert of an order and left its update. -/
def compacted : List TopicEvent :=
  [.record (.change (.update (orderAt 1 "pending" 0) (orderAt 1 "confirmed" 75))),
    .watermark 65000]

theorem rebuild_counts_negative :
    IsHistory [.create (orderAt 1 "pending" 0),
        .update (orderAt 1 "pending" 0) (orderAt 1 "confirmed" 75)] ∧
      Compacted (topicOf [.create (orderAt 1 "pending" 0),
        .update (orderAt 1 "pending" 0) (orderAt 1 "confirmed" 75)]) (records compacted) ∧
      (sinkRecords (processed compacted)).map RevenueRecord.orderCount = [-1] ∧
      ¬ CountsExactly compacted := by
  refine ⟨by decide +kernel, ⟨by decide +kernel, by decide +kernel⟩, by decide +kernel, fun h => ?_⟩
  exact absurd (h (compacted.take 1) 65000 [] 0 rfl (by decide +kernel)) (by decide +kernel)

end Lakehouse.Verify
