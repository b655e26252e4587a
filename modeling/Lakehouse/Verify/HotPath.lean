import Lakehouse.Streaming.OrderRevenue
import Lakehouse.Verify.OrderHistory

/-!
# Windows of the hot path

Any interleaving of order histories, with any watermarks between the changes. The pane of an open
window is the count and the sum of the live orders that are in it (`pane_exact`), so what a window
emits when it fires is exact (`windows_exact`). Over all windows an order is counted again each time
it leaves a window that has fired (`emitted_total`).
-/

namespace Lakehouse.Verify

open Lib Source Streaming

/-! ## Totals of a window -/

/-- The order is in the window. -/
def inWindow (w : Int) (r : OrderRow) : Bool := windowOf minute (rowtime r) = w

/-- The number and the total amount of some orders. -/
def totals (rows : Multiset OrderRow) : Int × Int :=
  (rows.card, (rows.map fun r => r.totalAmount.val).sum)

/-- The contributions of some orders are their number and their amount. -/
theorem sum_contribution (rows : Multiset OrderRow) : (rows.map contribution).sum = totals rows := by
  induction rows using Multiset.induction with
  | empty => rfl
  | cons r rows ih =>
    rw [Multiset.map_cons, Multiset.sum_cons, ih]
    simp [contribution, totals, add_comm]

theorem sum_contribution_inWindow (w : Int) (rows : Multiset OrderRow) :
    (rows.map fun r => if inWindow w r then contribution r else 0).sum =
      totals (rows.filter fun r => inWindow w r) := by
  rw [← sum_contribution]
  induction rows using Multiset.induction with
  | empty => rfl
  | cons r rows ih => cases hr : inWindow w r <;> simp [hr, ih]

/-! ## Changes and rows -/

theorem changes_append (events events' : List StreamEvent) :
    changes (events ++ events') = changes events ++ changes events' := List.filterMap_append

/-- What a change adds to a window. -/
def netIn (w : Int) (c : Change OrderRow) : Int × Int :=
  net (fun r => if inWindow w r then contribution r else 0) c

/-- A change adds to a window what it adds to its live orders. -/
theorem valueIn_decode (w : Int) (c : Change OrderRow) :
    ((decode c).map (·.valueIn minute w)).sum = netIn w c := by
  have hinsert : ∀ r, (insertRow r).valueIn minute w = if inWindow w r then contribution r else 0 := by
    intro r
    by_cases hr : windowOf minute (rowtime r) = w <;>
      simp [insertRow, WindowEvent.valueIn, inWindow, hr]
  have hretract : ∀ r, (retractRow r).valueIn minute w =
      -(if inWindow w r then contribution r else 0) := by
    intro r
    by_cases hr : windowOf minute (rowtime r) = w <;>
      simp [retractRow, WindowEvent.valueIn, inWindow, hr]
  cases c with
  | create a => simp [decode, netIn, net, imageValue, Change.before, Change.after, hinsert]
  | read a => simp [decode, netIn, net, imageValue, Change.before, Change.after, hinsert]
  | update b a =>
    simp [decode, netIn, net, imageValue, Change.before, Change.after, hinsert, hretract,
      sub_eq_neg_add]
  | delete b => simp [decode, netIn, net, imageValue, Change.before, Change.after, hretract]

/-- A change adds in all what it adds to the live orders. -/
theorem value_decode (c : Change OrderRow) :
    ((decode c).map WindowEvent.value).sum = net contribution c := by
  cases c with
  | create a =>
    simp [decode, net, imageValue, Change.before, Change.after, insertRow, WindowEvent.value]
  | read a =>
    simp [decode, net, imageValue, Change.before, Change.after, insertRow, WindowEvent.value]
  | update b a =>
    simp [decode, net, imageValue, Change.before, Change.after, insertRow, retractRow,
      WindowEvent.value, sub_eq_neg_add]
  | delete b =>
    simp [decode, net, imageValue, Change.before, Change.after, retractRow, WindowEvent.value]

/-- A sum over the rows of a run is a sum over its changes, when watermarks are worth nothing. -/
theorem sum_windowEvents {value : WindowEvent (Int × Int) → Int × Int}
    {f : Change OrderRow → Int × Int} (hdecode : ∀ c, ((decode c).map value).sum = f c)
    (hwatermark : ∀ m, value (.watermark m) = 0) (events : List StreamEvent) :
    ((events.flatMap StreamEvent.windowEvents).map value).sum = ((changes events).map f).sum := by
  induction events with
  | nil => rfl
  | cons e events ih =>
    rw [List.flatMap_cons, List.map_append, List.sum_append, ih]
    cases e with
    | change c => simp [StreamEvent.windowEvents, hdecode, changes]
    | watermark m => simp [StreamEvent.windowEvents, hwatermark, changes]

/-! ## Panes -/

/-- The pane of an open window is what the changes so far add up to in it. -/
theorem pane_net {events : List StreamEvent} {w : Int}
    (hopen : closed minute (runJob events).1.watermark w = false) :
    (runJob events).1.panes.pane w = ((changes events).map (netIn w)).sum := by
  rw [← sum_windowEvents (valueIn_decode w) fun _ => rfl]
  exact (pane_run minute _ hopen).trans (zero_add _)

/-- **The pane of an open window is exact**: the live orders that are in it. -/
theorem pane_exact {events : List StreamEvent} (h : IsHistory (changes events)) {w : Int}
    (hopen : closed minute (runJob events).1.watermark w = false) :
    (runJob events).1.panes.pane w =
      totals ((liveOrders (changes events)).filter fun r => inWindow w r) := by
  rw [← sum_contribution_inWindow, ← sum_net_liveOrders _ h]
  exact pane_net hopen

/-- The job goes on from the state it is in. -/
theorem runJob_append (events events' : List StreamEvent) :
    runJob (events ++ events') =
      (((runJob events).1.run minute (events'.flatMap StreamEvent.windowEvents)).1,
        (runJob events).2 ++
          ((runJob events).1.run minute (events'.flatMap StreamEvent.windowEvents)).2) := by
  unfold runJob
  rw [List.flatMap_append, run_append]

/-- A change alone emits nothing. -/
theorem output_decode (s : WindowState (Int × Int)) (c : Change OrderRow) :
    (s.run minute (decode c)).2 = [] := by
  have hrow : ∀ (s : WindowState (Int × Int)) t v, (s.step minute (.row t v)).2 = [] := by
    intro s t v
    unfold WindowState.step
    dsimp only
    split <;> rfl
  cases c <;> simp [decode, insertRow, retractRow, WindowState.run, hrow]

/-- The panes are of open windows in every state. -/
theorem runJob_open (events : List StreamEvent) : ∀ e ∈ (runJob events).1.panes.entries,
    closed minute (runJob events).1.watermark e.1 = false :=
  entries_open minute (fun _ he => absurd he List.not_mem_nil) _

/-- Every window that has fired did so with the totals of some orders. -/
theorem outputs_exact {events : List StreamEvent} (h : IsHistory (changes events)) :
    ∀ e ∈ (runJob events).2, ∃ rows, e.2 = totals rows := by
  induction events using List.reverseRecOn with
  | nil => nofun
  | append_singleton events last ih =>
    rw [changes_append] at h
    intro e he
    rw [runJob_append] at he
    cases last with
    | change c =>
      have hnone : ((runJob events).1.run minute
          ([StreamEvent.change c].flatMap StreamEvent.windowEvents)).2 = [] := by
        simpa [StreamEvent.windowEvents] using output_decode _ c
      rw [hnone, List.append_nil] at he
      exact ih h.snoc.1 e he
    | watermark m =>
      replace h : IsHistory (changes events) := by simpa [changes] using h
      rcases List.mem_append.1 he with he | he
      · exact ih h e he
      · replace he : e ∈ ((runJob events).1.panes.select fun w =>
            closed minute (raise (runJob events).1.watermark m) w).entries := by
          simpa [StreamEvent.windowEvents, WindowState.run, WindowState.step] using he
        have hmem := (List.mem_filter.1 he).1
        exact ⟨_, ((runJob events).1.panes.eq_pane_of_mem hmem).trans
          (pane_exact h (runJob_open events e hmem))⟩

/-! ## One window -/

/-- A window emits the row of its totals unless no order is left in it. -/
theorem emit_totals (w : Int) (rows : Multiset OrderRow) :
    emit (w, totals rows) = if rows.card = 0 then none else some (revenueRow w (totals rows)) := by
  unfold emit
  by_cases hcard : rows.card = 0 <;> simp [totals, hcard]

theorem windowStart_inj {w w' : Int} : windowStart minute w = windowStart minute w' ↔ w = w' := by
  unfold windowStart minute
  omega

/-- The rows of a window are those of its panes. -/
theorem orderRevenue_window (out : List (Int × (Int × Int))) (w : Int) :
    ((out.filterMap emit).filter fun r => r.windowStart = windowStart minute w) =
      (out.filter fun e => e.1 = w).filterMap emit := by
  induction out with
  | nil => rfl
  | cons e out ih =>
    by_cases hzero : e.2.1 = 0
    · by_cases hw : e.1 = w <;> simp [emit, hzero, hw, ih]
    · by_cases hw : e.1 = w
      · simp [emit, hzero, hw, ih, revenueRow]
      · simp [emit, hzero, hw, ih, revenueRow, windowStart_inj]

/-- The entry of a window makes one row, or none when its count is zero. -/
theorem emit_entries (panes : Panes (Int × Int)) (w : Int) :
    (panes.entries.filter fun e => e.1 = w).filterMap emit = (emit (w, panes.pane w)).toList := by
  rcases panes.entry_eq w with ⟨hnil, hzero⟩ | hone
  · -- no pane: a row would have a count of zero
    rw [hnil, hzero]
    rfl
  · rw [hone, List.filterMap_cons, List.filterMap_nil]
    cases emit (w, panes.pane w) <;> rfl

/-- The rows of a window that fires have what all changes so far add up to in it. -/
theorem rows_of_window {events later : List StreamEvent} {w m : Int}
    (hopen : closed minute (runJob events).1.watermark w = false)
    (hfires : closed minute (raise (runJob events).1.watermark m) w = true) :
    ((orderRevenue (events ++ .watermark m :: later)).filter
        fun r => r.windowStart = windowStart minute w) =
      (emit (w, ((changes events).map (netIn w)).sum)).toList := by
  have hout : ((runJob (events ++ .watermark m :: later)).2.filter fun e => e.1 = w) =
      (runJob events).1.panes.entries.filter fun e => e.1 = w := by
    have honce := output_of_window minute (s := WindowState.init)
      (fun _ he => absurd he List.not_mem_nil) (events.flatMap StreamEvent.windowEvents)
      (later.flatMap StreamEvent.windowEvents) hopen hfires
    unfold runJob
    rw [List.flatMap_append]
    exact honce
  rw [orderRevenue, orderRevenue_window, hout, emit_entries, pane_net hopen]

theorem watermark_snoc (events : List StreamEvent) (m : Int) :
    (runJob (events ++ [StreamEvent.watermark m])).1.watermark =
      raise (runJob events).1.watermark m := by
  rw [runJob_append]
  rfl

/-- **Each window is exact when it fires.** For every interleaving of order histories, every
progress of the watermark and every window: over the whole run, the rows emitted for a window that
is open before some watermark and closed after it are one row with the number and the total amount
of the orders whose latest change so far is not a delete and lies in the window, or none when there
is no such order. No row ever has a negative count. -/
theorem windows_exact {events later : List StreamEvent} {w m : Int}
    (h : IsHistory (changes (events ++ .watermark m :: later)))
    (hopen : closed minute (runJob events).1.watermark w = false)
    (hfires : closed minute (runJob (events ++ [.watermark m])).1.watermark w = true) :
    let live := (liveOrders (changes events)).filter fun r => inWindow w r
    let revenue := (live.map fun r => r.totalAmount.val).sum
    ((orderRevenue (events ++ .watermark m :: later)).filter
        fun r => r.windowStart = windowStart minute w) =
      (if live.card = 0 then [] else
        [{ windowStart := windowStart minute w
           windowEnd := windowEnd minute w
           orderCount := live.card
           totalRevenue := revenue
           avgOrderValue := quotient (revenue * 10 ^ 4) live.card }]) ∧
    ∀ r ∈ orderRevenue (events ++ .watermark m :: later), 0 < r.orderCount := by
  intro live revenue
  have hprocessed : IsHistory (changes events) := by
    rw [changes_append] at h
    exact h.of_append
  refine ⟨?_, fun r hr => ?_⟩
  · rw [watermark_snoc] at hfires
    rw [rows_of_window hopen hfires, ← pane_net hopen, pane_exact hprocessed hopen, emit_totals]
    split <;> rfl
  · obtain ⟨e, he, hemit⟩ := List.mem_filterMap.1 hr
    obtain ⟨rows, hrows⟩ := outputs_exact h e he
    obtain ⟨w', x⟩ := e
    subst hrows
    rw [emit_totals] at hemit
    split at hemit
    · cases hemit
    · next hcard =>
      rw [← Option.some.inj hemit]
      simp only [revenueRow, totals]
      omega

/-! ## All windows -/

/-- The window of the order is closed. -/
def isLate (s : WindowState (Int × Int)) (r : OrderRow) : Bool :=
  closed minute s.watermark (windowOf minute (rowtime r))

/-- The before images whose window has fired when their update or delete is processed. -/
def lateRetractions : WindowState (Int × Int) → List StreamEvent → Multiset OrderRow
  | _, [] => 0
  | s, .change c :: events =>
    (c.before.filter (isLate s)).elim 0 ({·}) + lateRetractions (s.run minute (decode c)).1 events
  | s, .watermark m :: events => lateRetractions (s.run minute [.watermark m]).1 events

/-- Every after image is at most 5 s behind the images before it, and no watermark is ahead of
`updated_at - INTERVAL '5' SECOND` of the images so far. -/
def InTime : List OrderRow → List StreamEvent → Prop
  | _, [] => True
  | seen, .change c :: events =>
    (∀ a ∈ c.after, ∀ r ∈ seen, rowtime r - 5000 ≤ rowtime a) ∧
      InTime (seen ++ c.after.toList) events
  | seen, .watermark m :: events => (∃ r ∈ seen, m ≤ rowtime r - 5000) ∧ InTime seen events

instance : ∀ seen events, Decidable (InTime seen events)
  | _, [] => isTrue trivial
  | seen, .change c :: events =>
    have := instDecidableInTime (seen ++ c.after.toList) events
    inferInstanceAs (Decidable (_ ∧ InTime (seen ++ c.after.toList) events))
  | seen, .watermark _ :: events =>
    have := instDecidableInTime seen events
    inferInstanceAs (Decidable (_ ∧ InTime seen events))

/-- Each image of an order is newer than those before it. -/
def Increasing (log : List (Change OrderRow)) : Prop :=
  log.Pairwise fun c c' => ∀ a ∈ c.after, ∀ a' ∈ c'.after, a.orderId = a'.orderId →
    a.updatedAt < a'.updatedAt

/-- The watermark is not ahead of the images so far. -/
def Behind (seen : List OrderRow) (s : WindowState (Int × Int)) : Prop :=
  ∀ m ∈ s.watermark, ∃ r ∈ seen, m ≤ rowtime r - 5000

theorem behind_init (seen : List OrderRow) : Behind seen .init := fun _ h => nomatch h

/-- A row that is less than five seconds behind is not late. -/
theorem Behind.not_late {seen : List OrderRow} {s : WindowState (Int × Int)} (h : Behind seen s)
    {a : OrderRow} (ha : ∀ r ∈ seen, rowtime r - 5000 ≤ rowtime a) : isLate s a = false := by
  unfold isLate closed
  cases hw : s.watermark with
  | none => rfl
  | some m =>
    obtain ⟨r, hr, hm⟩ := h m hw
    have hend := lt_windowEnd (show 0 < minute by decide) (rowtime a)
    exact decide_eq_false (not_le.2 ((hm.trans (ha r hr)).trans_lt hend))

theorem run_decode_watermark (s : WindowState (Int × Int)) (c : Change OrderRow) :
    (s.run minute (decode c)).1.watermark = s.watermark := by
  cases c <;> simp [decode, insertRow, retractRow, WindowState.run]

/-- Of a change only the image it replaces can be late. -/
theorem late_decode {s : WindowState (Int × Int)} {c : Change OrderRow}
    (hafter : ∀ a ∈ c.after, isLate s a = false) :
    s.late minute (decode c) =
      -((((c.before.filter (isLate s)).elim 0 ({·}) : Multiset OrderRow).map contribution).sum) := by
  have hinsert : ∀ (s' : WindowState (Int × Int)) r, s'.lateIn minute (insertRow r) =
      if isLate s' r then contribution r else 0 := fun _ _ => rfl
  have hretract : ∀ (s' : WindowState (Int × Int)) r, s'.lateIn minute (retractRow r) =
      if isLate s' r then -contribution r else 0 := fun _ _ => rfl
  have hbefore : ∀ b : OrderRow, (if isLate s b then -contribution b else 0) =
      -(((((some b).filter (isLate s)).elim 0 ({·}) : Multiset OrderRow).map contribution).sum) := by
    intro b
    cases hb : isLate s b <;> simp [Option.filter, hb]
  cases c with
  | create a => simp [decode, WindowState.late, hinsert, Change.before, hafter a rfl]
  | read a => simp [decode, WindowState.late, hinsert, Change.before, hafter a rfl]
  | update b a =>
    have hnext : isLate (s.step minute (retractRow b)).1 a = false := by
      unfold isLate
      rw [retractRow, step_row_watermark]
      exact hafter a rfl
    simp only [decode, WindowState.late, hinsert, hretract, hnext, Change.before, hbefore]
    simp
  | delete b =>
    simp only [decode, WindowState.late, hretract, Change.before, hbefore]
    simp

/-- What a run in time loses is the late retractions. -/
theorem late_events {events : List StreamEvent} {seen : List OrderRow}
    {s : WindowState (Int × Int)} (hin : InTime seen events) (hs : Behind seen s) :
    s.late minute (events.flatMap StreamEvent.windowEvents) =
      -((lateRetractions s events).map contribution).sum := by
  induction events generalizing s seen with
  | nil => rfl
  | cons e events ih =>
    rw [List.flatMap_cons, late_append]
    cases e with
    | change c =>
      obtain ⟨hafter, hin⟩ := hin
      have hnext : Behind (seen ++ c.after.toList) (s.run minute (decode c)).1 := by
        intro m hm
        rw [run_decode_watermark] at hm
        obtain ⟨r, hr, hle⟩ := hs m hm
        exact ⟨r, List.mem_append_left _ hr, hle⟩
      rw [lateRetractions, Multiset.map_add, Multiset.sum_add, neg_add]
      exact congrArg₂ (· + ·) (late_decode fun a ha => hs.not_late (hafter a ha)) (ih hin hnext)
    | watermark m =>
      obtain ⟨hm, hin⟩ := hin
      have hnext : Behind seen (s.run minute [.watermark m]).1 := by
        intro m' hm'
        cases hw : s.watermark with
        | none =>
          have heq : m = m' := by simpa [WindowState.run, WindowState.step, raise, hw] using hm'
          exact heq ▸ hm
        | some m'' =>
          have heq : max m m'' = m' := by
            simpa [WindowState.run, WindowState.step, raise, hw] using hm'
          rcases max_choice m m'' with hmax | hmax
          · rw [← heq, hmax]
            exact hm
          · rw [← heq, hmax]
            exact hs m'' hw
      rw [lateRetractions]
      exact (congrArg₂ (· + ·) (zero_add _) (ih hin hnext)).trans (zero_add _)

/-- The rows that are emitted add up to what the panes held. -/
theorem emitted_sum {out : List (Int × (Int × Int))} (h : ∀ e ∈ out, ∃ rows, e.2 = totals rows) :
    (((out.filterMap emit).map RevenueRow.orderCount).sum,
      ((out.filterMap emit).map RevenueRow.totalRevenue).sum) = (out.map Prod.snd).sum := by
  induction out with
  | nil => rfl
  | cons e out ih =>
    obtain ⟨w, x⟩ := e
    obtain ⟨rows, rfl⟩ := h _ (.head _)
    rw [List.map_cons, List.sum_cons, ← ih fun e he => h e (.tail _ he)]
    by_cases hcard : rows.card = 0
    · rw [List.filterMap_cons_none (by rw [emit_totals, if_pos hcard]), Multiset.card_eq_zero.1 hcard]
      exact (zero_add _).symm
    · rw [List.filterMap_cons_some (by rw [emit_totals, if_neg hcard])]
      rfl

/-- The totals of all windows are those of the live orders, but for what is late. -/
theorem job_balance {events : List StreamEvent} (h : IsHistory (changes events)) :
    ((runJob events).2.map Prod.snd).sum + (runJob events).1.panes.total +
        WindowState.init.late minute (events.flatMap StreamEvent.windowEvents) =
      totals (liveOrders (changes events)) := by
  have hvalue : ((events.flatMap StreamEvent.windowEvents).map WindowEvent.value).sum =
      totals (liveOrders (changes events)) := by
    rw [sum_windowEvents value_decode fun _ => rfl, sum_net_liveOrders _ h, sum_contribution]
  rw [← hvalue]
  exact (run_balance minute _ _).trans (zero_add _)

/-- Nothing is left when every window is closed. -/
theorem total_of_all_closed {events : List StreamEvent} {m : Int}
    (hall : ∀ e ∈ (runJob events).1.panes.entries, windowEnd minute e.1 ≤ m) :
    (runJob (events ++ [StreamEvent.watermark m])).1.panes.total = 0 := by
  rw [runJob_append]
  change ((List.filter _ _).map Prod.snd).sum = 0
  have hnone : (runJob events).1.panes.entries.filter
      (fun e => !closed minute (raise (runJob events).1.watermark m) e.1) = [] := by
    apply List.filter_eq_nil_iff.2
    intro e he
    rw [closed_raise_self minute _ (hall e he)]
    decide
  exact congrArg (fun es => (es.map Prod.snd).sum) hnone

/-- The revenue that a record holds: none when it did not fit its column. -/
def recordedRevenue (r : RevenueRecord) : Int := (r.totalRevenue.map fun d => d.val).getD 0

/-- Totals that fit their column are recorded as they are. -/
theorem sum_recordedRevenue {rows : List RevenueRow}
    (hfit : ∀ r ∈ rows.map RevenueRow.record, r.totalRevenue.isSome = true) :
    ((rows.map RevenueRow.record).map recordedRevenue).sum =
      (rows.map RevenueRow.totalRevenue).sum := by
  rw [List.map_map]
  congr 1
  apply List.map_congr_left
  intro row hrow
  obtain ⟨d, hd⟩ := Option.isSome_iff_exists.1 (hfit _ (List.mem_map_of_mem hrow))
  rw [Function.comp_apply, recordedRevenue, hd]
  exact castPrecision_eq_some hd

/-- **An order is counted once more each time it leaves a window that has fired.** For every
interleaving of order histories with the changes and the watermarks in time, followed by a watermark
at which every window has fired: the counts of the records add up to the live orders and the updates
and deletes whose before image was in a window that had fired. As long as every total fits its
column, the revenue of the records adds up to the amounts of both. -/
theorem emitted_total {events : List StreamEvent} {m : Int} (h : IsHistory (changes events))
    (hin : InTime [] events)
    (hall : ∀ e ∈ (runJob events).1.panes.entries, windowEnd minute e.1 ≤ m) :
    let emitted := sinkRecords (events ++ [.watermark m])
    let live := liveOrders (changes events)
    let late := lateRetractions .init events
    (emitted.map RevenueRecord.orderCount).sum = live.card + late.card ∧
      ((∀ r ∈ emitted, r.totalRevenue.isSome = true) →
        (emitted.map recordedRevenue).sum =
          (live.map fun r => r.totalAmount.val).sum +
            (late.map fun r => r.totalAmount.val).sum) := by
  intro emitted live late
  have hchanges : changes (events ++ [StreamEvent.watermark m]) = changes events := by
    rw [changes_append]
    exact List.append_nil _
  have hlast : IsHistory (changes (events ++ [StreamEvent.watermark m])) := by rwa [hchanges]
  have hlate : WindowState.init.late minute
      ((events ++ [StreamEvent.watermark m]).flatMap StreamEvent.windowEvents) = -totals late := by
    rw [List.flatMap_append, late_append, late_events hin (behind_init []), sum_contribution]
    exact add_zero _
  have hbalance := job_balance hlast
  rw [hchanges, hlate, total_of_all_closed hall, add_zero, ← sub_eq_add_neg,
    sub_eq_iff_eq_add] at hbalance
  have hemitted := emitted_sum (outputs_exact hlast)
  rw [hbalance] at hemitted
  obtain ⟨hcount, hrevenue⟩ := Prod.mk.inj hemitted
  refine ⟨Eq.trans ?_ hcount, fun hfit => (sum_recordedRevenue hfit).trans hrevenue⟩
  exact congrArg List.sum (List.map_map ..)

/-! ## An order that is updated late -/

/-- An order as it is at a second. -/
def orderAt (id : Int64) (status : String) (second : Int) : OrderRow where
  orderId := id
  customerId := 7
  status := status
  totalAmount := ⟨4950, by decide⟩
  createdAt := 0
  updatedAt := second * 1000000

/-- Order 1 is confirmed after its first window has fired. -/
def lateUpdate : List StreamEvent :=
  [.change (.create (orderAt 1 "pending" 0)), .change (.create (orderAt 2 "pending" 70)),
    .watermark 65000, .change (.update (orderAt 1 "pending" 0) (orderAt 1 "confirmed" 75))]

theorem windows_exact_lateUpdate :
    ((orderRevenue lateUpdate).filter fun r => r.windowStart = windowStart minute 0) =
        [{ windowStart := 0
           windowEnd := 60000
           orderCount := 1
           totalRevenue := 4950
           avgOrderValue := 49500000 }] ∧
      ∀ r ∈ orderRevenue lateUpdate, 0 < r.orderCount :=
  @windows_exact (lateUpdate.take 2) (lateUpdate.drop 3) 0 65000 (by decide +kernel)
    (by decide +kernel) (by decide +kernel)

theorem emitted_total_lateUpdate :
    ((sinkRecords (lateUpdate ++ [.watermark 120000])).map RevenueRecord.orderCount).sum = 2 + 1 ∧
      ((sinkRecords (lateUpdate ++ [.watermark 120000])).map recordedRevenue).sum = 9900 + 4950 := by
  have htotal := @emitted_total lateUpdate 120000 (by decide +kernel) (by decide +kernel)
    (by decide +kernel)
  exact ⟨htotal.1, htotal.2 (by decide +kernel)⟩

/-- A hundred and one orders of one minute, each of the highest amount. -/
def crowdedMinute : List StreamEvent :=
  (List.range 101).map fun n => .change (.create
    { orderAt (Int64.ofNat n) "pending" 0 with totalAmount := ⟨999999999999, by decide⟩ })

/-- Two orders are live, and three are counted; and a total that does not fit its column is not
recorded. -/
theorem hotPath_counts_order_twice :
    IsHistory (changes lateUpdate) ∧ Increasing (changes lateUpdate) ∧ InTime [] lateUpdate ∧
      (∀ e ∈ (runJob lateUpdate).1.panes.entries, windowEnd minute e.1 ≤ 120000) ∧
      ((sinkRecords (lateUpdate ++ [.watermark 120000])).map RevenueRecord.orderCount).sum = 3 ∧
      (liveOrders (changes lateUpdate)).card = 2 ∧
      (sinkRecords (crowdedMinute ++ [.watermark 60000])).map RevenueRecord.totalRevenue =
        [none] := by
  refine ⟨by decide +kernel, ?_, by decide +kernel, by decide +kernel, by decide +kernel,
    by decide +kernel, by decide +kernel⟩
  unfold Increasing
  decide +kernel

end Lakehouse.Verify
